import ByteMachine.Report.Basic
import ByteMachine.Text.Quoted

/-!
# Reports as JSON

A report is one object, written over several lines with an indentation of two
blanks for each level and without a line end after the last brace.
-/

namespace ByteMachine
namespace Report

/-- The members of the outcome object, one line each. -/
def jsonOutcome (outcome : Outcome) : List String :=
  match outcome.fault? with
  | none => ["    \"status\": " ++ Text.doubleQuoted outcome.status]
  | some message =>
      ["    \"status\": " ++ Text.doubleQuoted outcome.status ++ ",",
        "    \"fault\": " ++ Text.doubleQuoted message]

/-- The elements of the register array, one line each, with a comma between
neighbours. -/
def jsonRegisters (registers : RegisterBank) : String :=
  String.intercalate ",\n"
    (registers.cells.toList.map fun value =>
      "    " ++ Numeral.decimal value.toNat)

def jsonLines (report : Report) : List String :=
  ["\x7b", "  \"outcome\": \x7b"] ++ jsonOutcome report.outcome ++
    ["  \x7d,",
      "  \"steps\": " ++ Numeral.decimal report.steps.toNat ++ ",",
      "  \"pc\": " ++ Numeral.decimal report.pc.toNat ++ ",",
      "  \"sp\": " ++ Numeral.decimal report.sp.toNat ++ ",",
      "  \"registers\": [",
      jsonRegisters report.registers,
      "  ]",
      "\x7d"]

def toJson (report : Report) : String :=
  String.intercalate "\n" report.jsonLines

end Report
end ByteMachine
