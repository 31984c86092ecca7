import ByteMachine.Text.Numeral

/-!
# Complaints about source text

What can be wrong with a line of source text, and the wording of it.  The line
number is kept beside the complaint, because the readers of operands and
statements do not know it.
-/

namespace ByteMachine

/-- What is wrong with a line. -/
inductive Complaint where
  /-- The first word of a statement names no operation. -/
  | unknownInstruction (word : String)
  /-- A statement has too few operands. -/
  | missingOperand (mnemonic : String)
  /-- A statement has too many operands. -/
  | unexpectedOperand (mnemonic : String)
  /-- A word that should be a number is none. -/
  | invalidNumber (word : String)
  /-- A word that should be a register is none. -/
  | invalidRegister (word : String)
  /-- A number is too large for its place. -/
  | outOfRange (value bits : Nat)
  /-- A label is defined a second time. -/
  | duplicateLabel (name : String)
  /-- A jump target is defined nowhere. -/
  | labelNotFound (name : String)
  /-- The text before a colon is no label name. -/
  | invalidLabel (name : String)
  /-- A label lies behind the last address. -/
  | addressOverflow (address : Nat)
  deriving DecidableEq, Repr

def Complaint.message : Complaint → String
  | unknownInstruction word => "unknown instruction `" ++ word ++ "`"
  | missingOperand mnemonic => mnemonic ++ " is missing an operand"
  | unexpectedOperand mnemonic => "unexpected operand for " ++ mnemonic
  | invalidNumber word => "invalid number `" ++ word ++ "`"
  | invalidRegister word => "invalid register `" ++ word ++ "`"
  | outOfRange value bits =>
      "value " ++ Numeral.decimal value ++ " does not fit in " ++
        Numeral.decimal bits ++ " bits"
  | duplicateLabel name => "duplicate label `" ++ name ++ "`"
  | labelNotFound name => "label `" ++ name ++ "` not found"
  | invalidLabel name => "invalid label `" ++ name ++ "`"
  | addressOverflow address =>
      "address 0x" ++ Numeral.hex 1 address ++
        " is past the 16-bit address space"

/-- A complaint about a line, counted from one. -/
structure AssemblyError where
  line : Nat
  complaint : Complaint
  deriving DecidableEq, Repr

def AssemblyError.message (error : AssemblyError) : String :=
  "line " ++ Numeral.decimal error.line ++ ": " ++ error.complaint.message

end ByteMachine
