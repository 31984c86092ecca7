import ByteMachine.Report.Basic
import ByteMachine.Yaml.Scalar

/-!
# Reports as YAML

A report is one mapping.  Every line ends in a line feed, the last one too, and
the registers are a sequence with one dash for each.
-/

namespace ByteMachine
namespace Report

/-- The number of blanks before the further lines of a fault's wording. -/
def faultMargin : Nat := 4

/-- The part of a report that gives the wording of a fault, for an outcome that
has one. -/
def yamlFault (outcome : Outcome) : String :=
  match outcome.fault? with
  | none => ""
  | some message => "  fault: " ++ Yaml.scalarLine faultMargin message

/-- The part of a report that says how the run ended. -/
def yamlOutcome (outcome : Outcome) : String :=
  "outcome:\n  status: " ++ outcome.status ++ "\n" ++ yamlFault outcome

/-- The lines of a report behind its outcome. -/
def yamlLines (report : Report) : List String :=
  ["steps: " ++ Numeral.decimal report.steps.toNat,
    "pc: " ++ Numeral.decimal report.pc.toNat,
    "sp: " ++ Numeral.decimal report.sp.toNat,
    "registers:"] ++
    report.registers.cells.toList.map fun value =>
      "- " ++ Numeral.decimal value.toNat

def toYaml (report : Report) : String :=
  yamlOutcome report.outcome ++ String.join (report.yamlLines.map (· ++ "\n"))

end Report
end ByteMachine
