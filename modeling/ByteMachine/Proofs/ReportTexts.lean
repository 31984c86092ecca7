import ByteMachine.Proofs.WrittenParts
import ByteMachine.Report.Json
import ByteMachine.Report.Yaml
import ByteMachine.Session.Run

/-!
# Reports tell the result of a run

Both written forms of a report have the same build: the status of the run, the
message of its fault if there was one, and eleven numbers behind fixed labels.
Each of these parts shows where it ends, whatever its content, so that a
written report tells all of them.  A message in turn tells the fault.  In JSON
this holds of every message.  In YAML the form of a message depends on its
characters, and it is shown for messages of one line, as all those of faults
are.
-/

namespace ByteMachine

/-! ## Parts of a report -/

namespace Outcome

/-- The outcomes of runs, in which a message is that of a fault. -/
inductive Genuine : Outcome → Prop
  | halted : Genuine .halted
  | stepLimit : Genuine .stepLimit
  | faulted (fault : Fault) : Genuine (.faulted fault.message)

/-- Outcomes of one status differ in their messages only. -/
theorem eq_or_faulted_of_status_eq
    {outcome other : Outcome} (h : outcome.status = other.status) :
    outcome = other ∨ ∃ message another,
      outcome = .faulted message ∧ other = .faulted another := by
  cases outcome <;> cases other <;> simp [status] at h ⊢

theorem Genuine.isLine
    {text : String} (h : Genuine (.faulted text)) :
    Yaml.IsLine text.toList := by
  cases h with
  | faulted fault => exact Yaml.isLine_of_isVisible fault.isVisible_message

theorem newline_not_mem_status (outcome : Outcome) :
    '\n' ∉ outcome.status.toList := by
  cases outcome <;> rw [status] <;> decide

end Outcome

namespace Report

/-- The numbers of a report, in the order in which they are written. -/
def numbers (report : Report) : List Nat :=
  [report.steps.toNat, report.pc.toNat, report.sp.toNat] ++
    report.registers.cells.toList.map UInt8.toNat

theorem length_numbers (report : Report) : report.numbers.length = 11 := by
  simp [numbers]

theorem eq_of_numbers_eq
    {first second : Report} (houtcome : first.outcome = second.outcome)
    (h : first.numbers = second.numbers) : first = second := by
  obtain ⟨_, _, _, _, ⟨_⟩⟩ := first
  obtain ⟨_, _, _, _, ⟨_⟩⟩ := second
  simp only [numbers, List.cons_append, List.nil_append, List.cons.injEq,
    UInt64.toNat_inj, UInt16.toNat_inj] at h houtcome
  obtain ⟨rfl, rfl, rfl, hcells⟩ := h
  have hbytes := (List.map_inj_right fun _ _ => UInt8.toNat_inj.mp).mp hcells
  rw [houtcome, Vector.toList_inj.mp hbytes]

/-- Reports with the same status are told by their messages and numbers. -/
theorem eq_of_parts_eq
    {labels : List String} {closing : String} {message : Outcome → String}
    (hlabels : ∀ label ∈ labels, Numeral.endsNumeral label = true)
    (hlength : labels.length = 11)
    (hclosing : Numeral.endsNumeral closing = true) {first second : Report}
    (hmessage : ∀ text other rest more, first.outcome = .faulted text →
      second.outcome = .faulted other →
      message (.faulted text) ++ rest = message (.faulted other) ++ more →
      text = other ∧ rest = more)
    (hstatus : first.outcome.status = second.outcome.status)
    (h : message first.outcome ++
        (Numeral.labelled labels first.numbers ++ closing) =
      message second.outcome ++
        (Numeral.labelled labels second.numbers ++ closing)) :
    first = second := by
  have hboth : first.outcome = second.outcome ∧
      Numeral.labelled labels first.numbers ++ closing =
        Numeral.labelled labels second.numbers ++ closing := by
    rcases Outcome.eq_or_faulted_of_status_eq hstatus with
      hsame | ⟨text, other, hfirst, hsecond⟩
    · rw [hsame, String.append_right_inj] at h
      exact ⟨hsame, h⟩
    · rw [hfirst, hsecond] at h ⊢
      obtain ⟨rfl, hback⟩ := hmessage text other _ _ hfirst hsecond h
      exact ⟨rfl, hback⟩
  obtain ⟨houtcome, hback⟩ := hboth
  have hnumbers := Numeral.labelled_append_inj hlabels hclosing hclosing
    (first.length_numbers.trans hlength.symm)
    (second.length_numbers.trans hlength.symm) hback
  exact eq_of_numbers_eq houtcome hnumbers

theorem exists_cells (bank : RegisterBank) : ∃ a b c d e f g h,
    bank.cells.toList = [a, b, c, d, e, f, g, h] := by
  have hlength : bank.cells.toList.length = 8 := bank.cells.length_toList
  generalize bank.cells.toList = cells at hlength
  match cells, hlength with
  | [a, b, c, d, e, f, g, h], _ => exact ⟨a, b, c, d, e, f, g, h, rfl⟩

/-! ## JSON -/

/-- What stands before each number in JSON. -/
def jsonLabels : List String :=
  ["\n  \x7d,\n  \"steps\": ", ",\n  \"pc\": ", ",\n  \"sp\": ",
    ",\n  \"registers\": [\n    "] ++ List.replicate 7 ",\n    "

/-- The message of an outcome in JSON, behind the status. -/
def jsonMessage (outcome : Outcome) : String :=
  match outcome.fault? with
  | none => ""
  | some message => ",\n    \"fault\": " ++ Text.doubleQuoted message

theorem toJson_eq_parts (report : Report) :
    report.toJson = "\x7b\n  \"outcome\": \x7b\n    \"status\": " ++
      (Text.doubleQuoted report.outcome.status ++
        (jsonMessage report.outcome ++
          (Numeral.labelled jsonLabels report.numbers ++ "\n  ]\n\x7d"))) := by
  obtain ⟨a, b, c, d, e, f, g, h, hcells⟩ := exists_cells report.registers
  apply String.toList_injective
  cases houtcome : report.outcome <;>
    simp [toJson, jsonLines, jsonOutcome, jsonRegisters, jsonMessage,
      jsonLabels, hcells, houtcome, Outcome.fault?, numbers, Numeral.labelled,
      String.append_assoc]

/-- Reports that are written alike in JSON are the same. -/
theorem toJson_injective : Function.Injective toJson := by
  intro first second h
  rw [toJson_eq_parts, toJson_eq_parts, String.append_right_inj] at h
  obtain ⟨hstatus, hback⟩ := Text.doubleQuoted_append_inj h
  refine eq_of_parts_eq (by decide) (by decide) (by decide) ?_ hstatus hback
  intro text other rest more _ _ hmessage
  simp only [jsonMessage, Outcome.fault?, String.append_assoc,
    String.append_right_inj] at hmessage
  exact Text.doubleQuoted_append_inj hmessage

/-! ## YAML -/

/-- What stands before each number in YAML. -/
def yamlLabels : List String :=
  ["steps: ", "\npc: ", "\nsp: ", "\nregisters:\n- "] ++
    List.replicate 7 "\n- "

theorem toYaml_eq_parts (report : Report) :
    report.toYaml = "outcome:\n  status: " ++ (report.outcome.status ++ ("\n" ++
      (yamlFault report.outcome ++
        (Numeral.labelled yamlLabels report.numbers ++ "\n")))) := by
  obtain ⟨a, b, c, d, e, f, g, h, hcells⟩ := exists_cells report.registers
  apply String.toList_injective
  -- Unfolded, because its rewrite rule is slow to make.
  unfold toYaml yamlOutcome
  simp [yamlLines, yamlLabels, hcells, numbers, Numeral.labelled,
    String.append_assoc]

/-- Reports of runs that are written alike in YAML are the same. -/
theorem eq_of_toYaml_eq
    {first second : Report} (hfirst : first.outcome.Genuine)
    (hsecond : second.outcome.Genuine) (h : first.toYaml = second.toYaml) :
    first = second := by
  rw [toYaml_eq_parts, toYaml_eq_parts, String.append_right_inj] at h
  have hchars := congrArg String.toList h
  simp only [String.toList_append] at hchars
  obtain ⟨hstatus, hback⟩ := line_append_inj
    first.outcome.newline_not_mem_status second.outcome.newline_not_mem_status
    hchars
  simp only [← String.toList_append] at hback
  refine eq_of_parts_eq (by decide) (by decide) (by decide) ?_
    (String.toList_injective hstatus) (String.toList_injective hback)
  intro text other rest more htext hother hmessage
  rw [htext] at hfirst
  rw [hother] at hsecond
  simp only [yamlFault, Outcome.fault?, String.append_assoc,
    String.append_right_inj] at hmessage
  exact Yaml.scalarLine_append_inj hfirst.isLine hsecond.isLine hmessage

end Report

/-! ## Reports of runs -/

theorem Machine.genuine_outcome (machine : Machine) :
    machine.outcome.Genuine := by
  rw [outcome]
  cases machine.lastFault with
  | none => exact .halted
  | some fault => exact .faulted fault

theorem Session.genuine_of_run
    {σ : Type} [Sink σ] {session : Session σ} {fuel : Nat}
    {turn : Turn σ Report} (h : session.run fuel = some turn) :
    turn.answer.outcome.Genuine := by
  rw [run] at h
  split at h
  · obtain rfl := Option.some.inj h
    rw [runWithin]
    split
    · exact .stepLimit
    · exact Machine.genuine_outcome _
  · rw [runToEnd] at h
    split at h
    · cases h
    · obtain rfl := Option.some.inj h
      exact Machine.genuine_outcome _

/-- A written report tells the whole report.  Runs report that the machine
halted, that their budget was spent, or the message of a fault.  Two such
reports that are written alike, in JSON or in YAML, are the same, and in JSON
any two reports are.  As distinct faults have distinct messages, either text
also tells the fault with its numbers. -/
theorem reports_identify_results :
    (∀ first second : Report, first.outcome.Genuine → second.outcome.Genuine →
      first.toJson = second.toJson ∨ first.toYaml = second.toYaml →
      first = second) ∧
    (∀ first second : Report, first.toJson = second.toJson →
      first = second) ∧
    (∀ fault other : Fault, fault ≠ other → fault.message ≠ other.message) ∧
    (∀ (first second : Report) (fault other : Fault),
      first.outcome = .faulted fault.message →
      second.outcome = .faulted other.message →
      first.toJson = second.toJson ∨ first.toYaml = second.toYaml →
      fault = other) ∧
    ∀ (σ : Type) [Sink σ] (session : Session σ) (fuel : Nat)
      (turn : Turn σ Report), session.run fuel = some turn →
      turn.answer.outcome.Genuine := by
  have hsame : ∀ first second : Report, first.outcome.Genuine →
      second.outcome.Genuine →
      first.toJson = second.toJson ∨ first.toYaml = second.toYaml →
      first = second := by
    rintro first second hfirst hsecond (hjson | hyaml)
    · exact Report.toJson_injective hjson
    · exact Report.eq_of_toYaml_eq hfirst hsecond hyaml
  refine ⟨hsame, ?_, ?_, ?_, ?_⟩
  · intro first second hjson
    exact Report.toJson_injective hjson
  · intro fault other hne
    exact Fault.message_injective.ne hne
  · intro first second fault other hfirst hsecond htext
    have hgenuine : first.outcome.Genuine := hfirst ▸ .faulted fault
    have hother : second.outcome.Genuine := hsecond ▸ .faulted other
    obtain rfl := hsame first second hgenuine hother htext
    rw [hfirst, Outcome.faulted.injEq] at hsecond
    exact Fault.message_injective hsecond
  · intro σ _ session fuel turn hrun
    exact Session.genuine_of_run hrun

/-- A pop from the empty stack, whose message needs quotes in YAML, is known
from the text of the report alone. -/
theorem reports_identify_results_emptyPop :
    let session := (Session.load ({ sink := {} } : Session Tape) [9, 0]).session
    ∃ turn, session.run 1 = some turn ∧
      turn.answer.toYaml =
        "outcome:\n  status: faulted\n" ++
          "  fault: 'stack overflow: pop past the empty marker at sp 255'\n" ++
          "steps: 0\npc: 2\nsp: 255\nregisters:\n" ++
          "- 0\n- 0\n- 0\n- 0\n- 0\n- 0\n- 0\n- 0\n" ∧
      turn.answer = ⟨.faulted (Fault.stackOverflow 255).message, 0, 2, 255,
        RegisterBank.zero⟩ := by
  intro session
  obtain ⟨expected, hexpected⟩ : ∃ expected : Report, expected =
      ⟨.faulted (Fault.stackOverflow 255).message, 0, 2, 255,
        RegisterBank.zero⟩ := ⟨_, rfl⟩
  have hgenuine : expected.outcome.Genuine := by
    rw [hexpected]
    exact .faulted _
  have htext : (session.run 1).map (fun turn => turn.answer.toYaml) =
      some expected.toYaml := by
    rw [hexpected]
    decide +kernel
  obtain ⟨turn, hrun, hyaml⟩ := Option.map_eq_some_iff.mp htext
  obtain ⟨hsame, -, -, -, hruns⟩ := reports_identify_results
  have hanswer := hsame turn.answer expected (hruns _ session 1 turn hrun)
    hgenuine (.inr hyaml)
  refine ⟨turn, hrun, ?_, hanswer.trans hexpected⟩
  rw [hyaml, hexpected]
  decide +kernel

end ByteMachine
