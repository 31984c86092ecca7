import ByteMachine.Fault

/-!
# The journal

While it works, a machine makes remarks about what it does.  A remark is data,
so that the journal of a run can be kept without writing any of it; its level,
the component that made it and its wording are functions of it.  The journal
also holds the lines offered to the sink, in their place between the remarks.
-/

namespace ByteMachine

/-- How important a remark is, the most important first. -/
inductive Level where
  | error
  | warn
  | info
  | debug
  | trace
  deriving DecidableEq, Repr

namespace Level

/-- The position of a level among all levels. -/
def rank : Level → Nat
  | error => 0
  | warn => 1
  | info => 2
  | debug => 3
  | trace => 4

def name : Level → String
  | error => "ERROR"
  | warn => "WARN"
  | info => "INFO"
  | debug => "DEBUG"
  | trace => "TRACE"

def all : List Level :=
  [error, warn, info, debug, trace]

/-- The level with a given name, in any case of the ASCII letters. -/
def ofName? (name : String) : Option Level :=
  all.find? fun level => level.name = Text.capitals name

end Level

/-- The parts of the program that make remarks. -/
inductive Component where
  | machine
  | session
  | command
  deriving DecidableEq, Repr

/-- The name of a component in log lines. -/
def Component.path : Component → String
  | machine => "octet_core::machine"
  | session => "octet_core::host"
  | command => "octet"

/-- What a component has to say about its work. -/
inductive Remark where
  /-- A program of so many bytes was loaded. -/
  | loaded (size : Nat)
  /-- The machine was put back to its first state. -/
  | reset
  /-- The instruction at an address was fetched. -/
  | fetched (address : Address) (instruction : Instruction Address)
  /-- A value is about to be printed. -/
  | printing (register value : UInt8)
  /-- A halt instruction was executed. -/
  | halted (pc : Address) (steps : UInt64)
  /-- A fault stopped the machine. -/
  | faulted (pc : Address) (fault : Fault)
  /-- A run was ended because its budget is spent. -/
  | budgetSpent (budget : Nat) (pc : Address)
  deriving DecidableEq, Repr

namespace Remark

def level : Remark → Level
  | loaded _ => .info
  | reset => .info
  | fetched .. => .trace
  | printing .. => .debug
  | halted .. => .info
  | faulted .. => .error
  | budgetSpent .. => .warn

def component : Remark → Component
  | budgetSpent .. => .session
  | _ => .machine

def message : Remark → String
  | loaded size => "loaded " ++ Numeral.decimal size ++ " byte program"
  | reset => "machine reset"
  | fetched address instruction =>
      "0x" ++ Numeral.hex 4 address.toNat ++ ": " ++ instruction.text
  | printing register value =>
      "PRINT " ++ Instruction.registerText register ++ " = " ++
        Numeral.decimal value.toNat
  | halted pc steps =>
      "halted at 0x" ++ Numeral.hex 4 pc.toNat ++ " after " ++
        Numeral.decimal steps.toNat ++ " steps"
  | faulted pc fault =>
      "fault at pc 0x" ++ Numeral.hex 4 pc.toNat ++ ": " ++ fault.message
  | budgetSpent budget pc =>
      "step budget of " ++ Numeral.decimal budget ++ " exhausted at pc 0x" ++
        Numeral.hex 4 pc.toNat

end Remark

/-- An entry of a journal. -/
inductive Event where
  | remark (said : Remark)
  /-- A line, its end included, that was offered to the sink. -/
  | offered (line : String)
  deriving DecidableEq, Repr

/-- The wording of a log line: where the message has further lines, they are
moved in by four blanks. -/
def logText (message : String) : String :=
  String.ofList (message.toList.flatMap fun c =>
    if c = '\n' then ['\n', ' ', ' ', ' ', ' '] else [c])

/-- A log line: the level in a column of five characters, the component and the
wording. -/
def logLine (level : Level) (component : Component) (message : String) :
    String :=
  "[" ++ String.ofList (level.name.toList.rightpad 5 ' ') ++ " " ++
    component.path ++ "] " ++ logText message ++ "\n"

end ByteMachine
