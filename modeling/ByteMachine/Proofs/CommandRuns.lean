import ByteMachine.Command.Run
import ByteMachine.Proofs.FreshStart
import ByteMachine.Proofs.MemoryContents
import ByteMachine.Proofs.StoredFiles

/-!
# Running source text

A file of source text can be run as it is, or be assembled into another file
that is then run.  Both ways come to the same program, because what assembling
writes is what the second run reads, and a run is told by its program alone.
How a run ends decides the exit code, and nothing but a report goes to the
output channel.
-/

namespace ByteMachine

/-! ## The program of a run -/

/-- Every text is the text of its own bytes. -/
theorem textOfBytes?_toUTF8 (text : String) :
    textOfBytes? text.toUTF8.data.toList = some text := by
  rw [textOfBytes?, String.fromUTF8?]
  exact dif_pos text.isValidUTF8

theorem assembleFile_toUTF8
    {text : String} {program : Program} (h : assemble text = .ok program)
    (path : String) :
    assembleFile path text.toUTF8.data.toList = .ok program.bytes := by
  rw [assembleFile, textOfBytes?_toUTF8]
  simp [h]

section Command

variable {directory : Directory} {words : List String} {content : List UInt8}
  {program : List UInt8} (fuel : Nat) (request : LogRequest)

/-- A command that runs a file with a program in it does what the program
does, and leaves all files alone. -/
theorem runCommand_of_run
    {file : String} {settings : RunSettings}
    (hwords : Invocation.ofWords? words = some (.run file settings))
    (hread : directory.read file = .ok content)
    (hprogram : programInFile file content = .ok program) :
    runCommand fuel request directory words =
      (executeProgram fuel request.filter program settings).map
        fun response => (response.after request.warnings, directory) := by
  have hplan : Invocation.plan (directory.read file) (.run file settings) =
      .execute program settings := by
    simp [Invocation.plan, Invocation.plan?, Invocation.require, hread,
      Except.mapError, hprogram]
  rw [runCommand, hwords]
  simp only [Invocation.content, Invocation.input?, hplan, Plan.carryOut,
    Option.map_map]
  rfl

/-- A command that assembles a file writes the program, of whatever size. -/
theorem runCommand_of_assemble
    {source target : String} {place : Place}
    (hwords : Invocation.ofWords? words = some (.assemble source target))
    (hread : directory.read source = .ok content)
    (hprogram : assembleFile source content = .ok program)
    (hplace : directory.destination target = .ok (.file place)) :
    runCommand fuel request directory words =
      some ((responseToSave request.filter target program none).after
        request.warnings, directory.put place program) := by
  have hplan : Invocation.plan (directory.read source)
      (.assemble source target) = .save target program := by
    simp [Invocation.plan, Invocation.plan?, Invocation.require, hread,
      Except.mapError, hprogram]
  rw [runCommand, hwords]
  simp only [Invocation.content, Invocation.input?, hplan, Plan.carryOut,
    hplace, Option.map_some]

end Command

/-! ## The response to a run -/

theorem runProgram_of_large
    {σ : Type} [Sink σ] {program : List UInt8} (h : 256 < program.length)
    (fuel : Nat) (sink : σ) (budget : Option Nat) :
    runProgram fuel program sink budget = .error ⟨program.length, 256⟩ := by
  have hload : Machine.initial.load program = .error ⟨program.length, 256⟩ := by
    rw [Machine.load_eq, if_neg (Nat.not_le.mpr h)]
  simp [runProgram, Session.load, hload]

section Execute

variable {program : List UInt8} (fuel : Nat) (filter : LogFilter)
  (settings : RunSettings)

/-- Of a program that does not fit, only its size is told. -/
theorem executeProgram_of_large (h : 256 < program.length) :
    executeProgram fuel filter program settings =
      some (CommandError.response (.tooLarge ⟨program.length, 256⟩)) := by
  rw [executeProgram, runProgram_of_large h]

theorem executeProgram_of_fits (h : program.length ≤ 256) :
    ∃ ended, runProgram fuel program ({} : Tape) settings.maxSteps =
        .ok ended ∧
      executeProgram fuel filter program settings =
        ended.map (responseToRun filter settings) := by
  refine ⟨_, runProgram_eq_run h fuel _ _, ?_⟩
  rw [executeProgram, runProgram_eq_run h]

end Execute

theorem Report.written_ne_empty_iff
    (report : Report) (format : Option ReportFormat) :
    report.written format ≠ "" ↔ format.isSome = true := by
  cases format with
  | none => simp [written]
  | some format =>
      refine iff_of_true ?_ rfl
      intro hempty
      cases format with
      | json =>
          rw [written, String.append_eq_empty_iff] at hempty
          exact absurd hempty.2 (by decide)
      | yaml =>
          rw [written, toYaml, String.append_eq_empty_iff] at hempty
          obtain ⟨houtcome, -⟩ := hempty
          -- Unfolded, because its rewrite rule is slow to make.
          unfold yamlOutcome at houtcome
          rw [String.append_eq_empty_iff, String.append_eq_empty_iff]
            at houtcome
          exact absurd houtcome.1.2 (by decide)

/-- The exit code tells whether a program was loaded and halted, and the output
channel is used when a report is wanted and there is something to report. -/
theorem executeProgram_spec
    {fuel : Nat} {filter : LogFilter} {program : List UInt8}
    {settings : RunSettings} {response : Response}
    (h : executeProgram fuel filter program settings = some response) :
    response.exitCode ≤ 1 ∧
    (response.exitCode = 0 ↔
      ∃ turn, runProgram fuel program ({} : Tape) settings.maxSteps =
        .ok (some turn) ∧ turn.answer.outcome = .halted) ∧
    (response.output ≠ "" ↔
      settings.report.isSome = true ∧ program.length ≤ 256) := by
  by_cases hsize : program.length ≤ 256
  · obtain ⟨ended, hended, hexecute⟩ :=
      executeProgram_of_fits fuel filter settings hsize
    rw [hexecute] at h
    obtain ⟨turn, rfl, rfl⟩ := Option.map_eq_some_iff.mp h
    refine ⟨?_, ?_, ?_⟩
    · rw [responseToRun]
      split
      · exact Nat.zero_le 1
      · exact Nat.le_refl 1
    · rw [hended]
      simp [responseToRun, Report.success]
    · rw [responseToRun, Report.written_ne_empty_iff]
      simp [hsize]
  · have hlarge := Nat.not_le.mp hsize
    rw [executeProgram_of_large fuel filter settings hlarge] at h
    obtain rfl := Option.some.inj h
    refine ⟨Nat.le_refl 1, ?_, ?_⟩
    · simp [runProgram_of_large hlarge, CommandError.response]
    · simp [CommandError.response, hsize]

/-! ## Both ways -/

theorem LogRequest.silent_of_empty (message : String) :
    ({} : LogRequest).warnings ++
      ({} : LogRequest).filter.line .info .command message = "" := by
  have hheld : ({} : LogRequest).filter.admits .info .command = false := by
    decide
  simp [LogFilter.line, hheld, warnings]

/-- Source text runs as it does when it is assembled first.  Whatever words ask
for the three commands, assembling succeeds and is silent unless a log is
asked for, and the run of the file that it wrote ends exactly when the run of
the source does, with the same response.  Where the program does not fit into
memory, this response tells so.  The exit code is zero if and only if the
program is loaded and halts, and the output channel is used if and only if it
is loaded and a report was asked for. -/
theorem run_source_matches_run_assembled
    {directory : Directory} {source target : String} {settings : RunSettings}
    {runSource assembleSource runTarget : List String}
    (hrunSource : Invocation.ofWords? runSource = some (.run source settings))
    (hassembleSource :
      Invocation.ofWords? assembleSource = some (.assemble source target))
    (hrunTarget : Invocation.ofWords? runTarget = some (.run target settings))
    (hsource : Path.extension? source = some "asm")
    (htarget : Path.extension? target ≠ some "asm")
    {text : String} {program : Program}
    (hread : directory.read source = .ok text.toUTF8.data.toList)
    (hprogram : assemble text = .ok program)
    {place : Place}
    (hplace : directory.destination target = .ok (.file place))
    (fuel : Nat) (request : LogRequest) :
    let stored := directory.put place program.bytes
    let note := request.warnings ++ request.filter.line .info .command
      ("wrote " ++ Numeral.decimal program.bytes.length ++ " bytes to " ++
        target)
    runCommand fuel request directory assembleSource =
      some (⟨0, "", note⟩, stored) ∧
    (request = .ofText "" → note = "") ∧
    (runCommand fuel request stored runTarget).map Prod.fst =
      (runCommand fuel request directory runSource).map Prod.fst ∧
    (256 < program.bytes.length →
      runCommand fuel request directory runSource =
        some (⟨1, "", request.warnings ++
          CommandError.message (.tooLarge ⟨program.bytes.length, 256⟩)⟩,
          directory)) ∧
    ∀ response after,
      runCommand fuel request directory runSource = some (response, after) →
      after = directory ∧ response.exitCode ≤ 1 ∧
      (response.exitCode = 0 ↔
        ∃ turn, runProgram fuel program.bytes ({} : Tape) settings.maxSteps =
          .ok (some turn) ∧ turn.answer.outcome = .halted) ∧
      (response.output ≠ "" ↔
        settings.report.isSome = true ∧ program.bytes.length ≤ 256) := by
  intro stored note
  have hassembled := assembleFile_toUTF8 hprogram source
  have hfromSource : programInFile source text.toUTF8.data.toList =
      .ok program.bytes := by
    rw [programInFile, Path.isSource, hsource]
    exact hassembled
  have hfromTarget : programInFile target program.bytes =
      .ok program.bytes := by
    simp [programInFile, Path.isSource, htarget]
  have hstored : stored.read target = .ok program.bytes :=
    Directory.read_put hplace program.bytes
  have hsourceRun :=
    runCommand_of_run fuel request hrunSource hread hfromSource
  have htargetRun :=
    runCommand_of_run fuel request hrunTarget hstored hfromTarget
  refine ⟨?_, ?_, ?_, ?_, ?_⟩
  · exact runCommand_of_assemble fuel request hassembleSource hread hassembled
      hplace
  · rintro rfl
    exact LogRequest.silent_of_empty _
  · rw [hsourceRun, htargetRun, Option.map_map, Option.map_map]
    rfl
  · intro hlarge
    rw [hsourceRun, executeProgram_of_large _ _ _ hlarge]
    rfl
  · intro response after hrun
    rw [hsourceRun] at hrun
    obtain ⟨bare, hbare, hresponse⟩ := Option.map_eq_some_iff.mp hrun
    obtain ⟨rfl, rfl⟩ := Prod.mk.inj hresponse
    have hspec := executeProgram_spec hbare
    exact ⟨rfl, hspec⟩

/-- A loop that prints is assembled over an older file and stopped by its
budget, as it is when it is run from its source. -/
theorem run_source_matches_run_assembled_endless :
    let directory := Directory.ofFiles
      [("loop.asm", "top:\nLOAD R0 7\nPRINT R0\nJMP top".toUTF8.data.toList),
        ("out/loop", [0])]
    ∃ stored,
      runCommand 0 (.ofText "") directory
        ["asm", "--output=out/./loop", "loop.asm"] =
          some (⟨0, "", ""⟩, stored) ∧
      (runCommand 0 (.ofText "") stored
        ["run", "out/./loop", "--max-steps", "5"]).map Prod.fst =
          some ⟨1, "", "7\n7\n"⟩ := by
  intro directory
  have hassemble : assemble "top:\nLOAD R0 7\nPRINT R0\nJMP top" =
      .ok ⟨[1, 0, 7, 10, 0, 6, 0, 0], [("top", 0)]⟩ := by
    decide +kernel
  have hrun : (runCommand 0 (.ofText "") directory
      ["run", "--max-steps=5", "loop.asm"]).map Prod.fst =
        some ⟨1, "", "7\n7\n"⟩ := by
    decide +kernel
  obtain ⟨hwrote, hsilent, hsame, -⟩ :=
    @run_source_matches_run_assembled directory "loop.asm" "out/./loop"
      ⟨some 5, none⟩ ["run", "--max-steps=5", "loop.asm"]
      ["asm", "--output=out/./loop", "loop.asm"]
      ["run", "out/./loop", "--max-steps", "5"]
      (by decide +kernel) (by decide +kernel) (by decide +kernel)
      (by decide +kernel) (by decide +kernel) _ _ (by decide +kernel) hassemble
      ["out", "loop"] (by decide +kernel) 0 (.ofText "")
  rw [hsilent rfl] at hwrote
  exact ⟨_, hwrote, hsame.trans hrun⟩

end ByteMachine
