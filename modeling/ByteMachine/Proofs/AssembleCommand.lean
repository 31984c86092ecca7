import ByteMachine.Proofs.CommandRuns

/-!
# Assembling a file is all or nothing

A command that assembles a file writes only after the whole text was read and
assembled.  There are three reasons why it may not come to that: the file
cannot be read, its bytes encode no text, or the text does not assemble.  Each
of them ends the command before any file is touched.  Otherwise the program
replaces what was at the place of the output, and nothing happens at any other
place.
-/

namespace ByteMachine

/-! ## Texts in files -/

/-- Bytes are read as the text that they encode. -/
theorem textOfBytes?_eq_some_iff {bytes : List UInt8} {text : String} :
    textOfBytes? bytes = some text ↔ bytes = text.toUTF8.data.toList := by
  constructor
  · intro h
    rw [textOfBytes?, String.fromUTF8?] at h
    split at h
    · obtain rfl := Option.some.inj h
      rfl
    · cases h
  · rintro rfl
    exact textOfBytes?_toUTF8 text

theorem textOfBytes?_eq_none_iff {bytes : List UInt8} :
    textOfBytes? bytes = none ↔
      ∀ text : String, bytes ≠ text.toUTF8.data.toList := by
  rw [Option.eq_none_iff_forall_ne_some]
  exact forall_congr' fun text => not_congr textOfBytes?_eq_some_iff

namespace Directory

/-- The file at a path holds a text that assembles to the program. -/
def HoldsProgram (directory : Directory) (path : String) (program : Program) :
    Prop :=
  ∃ text : String, directory.read path = .ok text.toUTF8.data.toList ∧
    assemble text = .ok program

/-- Why the file at a path gives no program. -/
inductive LacksProgram (directory : Directory) (path : String) :
    CommandError → Prop
  /-- The file cannot be read. -/
  | unreadable {error : FileError}
      (hread : directory.read path = .error error) :
      LacksProgram directory path (.unreadable path error)
  /-- The file holds no text. -/
  | invalidText {content : List UInt8}
      (hread : directory.read path = .ok content)
      (htext : ∀ text : String, content ≠ text.toUTF8.data.toList) :
      LacksProgram directory path (.invalidText path)
  /-- The text in the file does not assemble, whichever pass refuses it. -/
  | rejected {text : String} {error : AssemblyError}
      (hread : directory.read path = .ok text.toUTF8.data.toList)
      (herror : assemble text = .error error) :
      LacksProgram directory path (.rejectedSource path error)

end Directory

/-! ## The plan of the command -/

theorem assembleFile_eq_ok_iff
    {path : String} {content bytes : List UInt8} :
    assembleFile path content = .ok bytes ↔
      ∃ text program, content = text.toUTF8.data.toList ∧
        assemble text = .ok program ∧ program.bytes = bytes := by
  simp only [← textOfBytes?_eq_some_iff]
  rw [assembleFile]
  cases textOfBytes? content with
  | none => simp
  | some text =>
      cases hassemble : assemble text with
      | ok program => simp [hassemble]
      | error error => simp [hassemble]

theorem assembleFile_eq_error_iff
    {path : String} {content : List UInt8} {error : CommandError} :
    assembleFile path content = .error error ↔
      (∀ text : String, content ≠ text.toUTF8.data.toList) ∧
          error = .invalidText path ∨
        ∃ text cause, content = text.toUTF8.data.toList ∧
          assemble text = .error cause ∧
          error = .rejectedSource path cause := by
  simp only [← textOfBytes?_eq_some_iff, ← textOfBytes?_eq_none_iff]
  rw [assembleFile]
  cases textOfBytes? content with
  | none => simp [eq_comm]
  | some text =>
      cases hassemble : assemble text with
      | ok program => simp [hassemble]
      | error cause => simp [hassemble, eq_comm]

section

variable {directory : Directory} {source target : String}

/-- A file that was read is assembled, and the program is to be saved. -/
theorem plan?_assemble_of_read
    {content : List UInt8} (hread : directory.read source = .ok content) :
    (Invocation.assemble source target).plan? (directory.read source) =
      (assembleFile source content).map (Plan.save target) := by
  simp only [Invocation.plan?, Invocation.require, hread, Except.mapError,
    Result.ok_bind]
  cases assembleFile source content <;> rfl

theorem plan?_assemble_of_unreadable
    {error : FileError} (hread : directory.read source = .error error) :
    (Invocation.assemble source target).plan? (directory.read source) =
      .error (.unreadable source error) := by
  simp [Invocation.plan?, Invocation.require, hread, Except.mapError]

/-- The command fails for the reasons why there is no program, and for no
other. -/
theorem plan?_assemble_eq_error_iff {error : CommandError} :
    (Invocation.assemble source target).plan? (directory.read source) =
        .error error ↔ directory.LacksProgram source error := by
  constructor
  · intro h
    cases hread : directory.read source with
    | error cause =>
        rw [plan?_assemble_of_unreadable hread] at h
        obtain rfl := Except.error.inj h
        exact .unreadable hread
    | ok content =>
        rw [plan?_assemble_of_read hread, Result.map_eq_error_iff,
          assembleFile_eq_error_iff] at h
        rcases h with ⟨htext, rfl⟩ | ⟨text, cause, rfl, hcause, rfl⟩
        · exact .invalidText hread htext
        · exact .rejected hread hcause
  · intro h
    cases h with
    | unreadable hread => exact plan?_assemble_of_unreadable hread
    | invalidText hread htext =>
        rw [plan?_assemble_of_read hread, Result.map_eq_error_iff,
          assembleFile_eq_error_iff]
        exact .inl ⟨htext, rfl⟩
    | rejected hread hcause =>
        rw [plan?_assemble_of_read hread, Result.map_eq_error_iff,
          assembleFile_eq_error_iff]
        exact .inr ⟨_, _, rfl, hcause, rfl⟩

theorem plan?_assemble_eq_ok_iff {plan : Plan} :
    (Invocation.assemble source target).plan? (directory.read source) =
        .ok plan ↔
      ∃ program, directory.HoldsProgram source program ∧
        .save target program.bytes = plan := by
  constructor
  · intro h
    cases hread : directory.read source with
    | error cause =>
        rw [plan?_assemble_of_unreadable hread] at h
        cases h
    | ok content =>
        rw [plan?_assemble_of_read hread] at h
        obtain ⟨bytes, hbytes, hplan⟩ := Result.map_eq_ok_iff.mp h
        obtain ⟨text, program, rfl, hprogram, rfl⟩ :=
          assembleFile_eq_ok_iff.mp hbytes
        exact ⟨program, ⟨text, hread, hprogram⟩, hplan⟩
  · rintro ⟨program, ⟨text, hread, hprogram⟩, rfl⟩
    rw [plan?_assemble_of_read hread, assembleFile_toUTF8 hprogram]
    rfl

/-- A file either holds a program, or there is a reason why it does not. -/
theorem exists_lacksProgram_iff :
    (∃ error, directory.LacksProgram source error) ↔
      ¬∃ program, directory.HoldsProgram source program := by
  constructor
  · rintro ⟨error, herror⟩ ⟨program, hprogram⟩
    have hfails :
        (Invocation.assemble source source).plan? (directory.read source) =
          .error error := plan?_assemble_eq_error_iff.mpr herror
    rw [plan?_assemble_eq_ok_iff.mpr ⟨program, hprogram, rfl⟩] at hfails
    cases hfails
  · intro hnone
    cases hplan :
        (Invocation.assemble source source).plan? (directory.read source) with
    | error error => exact ⟨error, plan?_assemble_eq_error_iff.mp hplan⟩
    | ok plan =>
        obtain ⟨program, hprogram, -⟩ := plan?_assemble_eq_ok_iff.mp hplan
        exact absurd ⟨program, hprogram⟩ hnone

end

/-! ## The whole command -/

/-- Any two names can be given, also names that look like options. -/
theorem Invocation.ofWords?_assemble
    (source target : String) (hsource : source ≠ "") (htarget : target ≠ "") :
    ofWords? ["asm", "--output=" ++ target, "--", source] =
      some (.assemble source target) := by
  have hflag : shape Subcommand.assemble.flags ("--output=" ++ target) =
      .flagWith .output target := by
    simp [shape, longShape, Subcommand.flags, Flag.long]
  have hrest : shape Subcommand.assemble.flags "--" = .separator := by
    decide
  have harguments : readArguments .assemble {}
      ["--output=" ++ target, "--", source] =
        .ok { operand := some source, output := some target } := by
    simp [readArguments, hflag, hrest, Arguments.setFlag, Arguments.setOperand,
      setOnce, readPath, hsource, htarget]
  have hname : ofWords? ["asm", "--output=" ++ target, "--", source] =
      readSubcommand .assemble ["--output=" ++ target, "--", source] := by
    rfl
  rw [hname, readSubcommand, harguments]
  rfl

section

variable {directory : Directory} {words : List String} {source target : String}
  (fuel : Nat) (request : LogRequest)
  (hwords : Invocation.ofWords? words = some (.assemble source target))
include hwords

theorem runCommand_of_lacksProgram
    {error : CommandError} (h : directory.LacksProgram source error) :
    runCommand fuel request directory words =
      some (⟨1, "", request.warnings ++ error.message⟩, directory) := by
  rw [runCommand, hwords]
  simp only [Invocation.content, Invocation.input?, Invocation.plan,
    plan?_assemble_eq_error_iff.mpr h, Plan.carryOut, Option.map_some]
  rfl

/-- A program that is found is saved and nothing is said about it, but to the
log. -/
theorem runCommand_of_holdsProgram
    {program : Program} {place : Place}
    (h : directory.HoldsProgram source program)
    (hplace : directory.destination target = .ok (.file place)) :
    ∃ errors, runCommand fuel request directory words =
      some (⟨0, "", errors⟩, directory.put place program.bytes) := by
  obtain ⟨text, hread, hprogram⟩ := h
  exact ⟨_, runCommand_of_assemble fuel request hwords hread
    (assembleFile_toUTF8 hprogram source) hplace⟩

/-- What is written to no file is not kept. -/
theorem runCommand_of_holdsProgram_of_no_file
    {program : Program} (h : directory.HoldsProgram source program)
    (hplace : ∀ place, directory.destination target ≠ .ok (.file place)) :
    ∃ response, runCommand fuel request directory words =
      some (response, directory) := by
  have hplan : Invocation.plan (directory.read source)
      (.assemble source target) = .save target program.bytes := by
    rw [Invocation.plan, plan?_assemble_eq_ok_iff.mpr ⟨program, h, rfl⟩]
  rw [runCommand, hwords]
  simp only [Invocation.content, Invocation.input?, hplan, Plan.carryOut]
  cases hdestination : directory.destination target with
  | error error => exact ⟨_, rfl⟩
  | ok destination =>
      cases destination with
      | file place => exact absurd hdestination (hplace place)
      | device device => exact ⟨_, rfl⟩

end

/-- Assembling a file is all or nothing.  A command for it that finds no
program, because the file cannot be read, holds no text or is rejected by
either pass of the assembler, exits with code one, prints nothing on its output
channel and leaves all files as they are, the one it should have written
included.  Otherwise, and where a file can be written, the command exits with
code zero, the program replaces whatever was at the place of the output, and
every other place is as it was.  Where no file can be written, none is
changed. -/
theorem assemble_command_all_or_nothing
    {words : List String} {source target : String}
    (hwords : Invocation.ofWords? words = some (.assemble source target))
    (fuel : Nat) (request : LogRequest) (directory : Directory) :
    (∀ error, directory.LacksProgram source error →
      runCommand fuel request directory words =
        some (⟨1, "", request.warnings ++ error.message⟩, directory)) ∧
    (∀ program place, directory.HoldsProgram source program →
      directory.destination target = .ok (.file place) →
      ∃ errors stored,
        runCommand fuel request directory words =
          some (⟨0, "", errors⟩, stored) ∧
        stored.read target = .ok program.bytes ∧
        stored.entry? place = some (.file program.bytes) ∧
        ∀ other, other ≠ place →
          stored.entry? other = directory.entry? other) ∧
    (∀ program, directory.HoldsProgram source program →
      (∀ place, directory.destination target ≠ .ok (.file place)) →
      ∃ response, runCommand fuel request directory words =
        some (response, directory)) ∧
    ((∃ error, directory.LacksProgram source error) ↔
      ¬∃ program, directory.HoldsProgram source program) := by
  refine ⟨?_, ?_, ?_, exists_lacksProgram_iff⟩
  · intro error herror
    exact runCommand_of_lacksProgram fuel request hwords herror
  · intro program place hprogram hplace
    obtain ⟨errors, hrun⟩ :=
      runCommand_of_holdsProgram fuel request hwords hprogram hplace
    refine ⟨errors, _, hrun, Directory.read_put hplace program.bytes,
      Directory.entry?_put_destination hplace program.bytes, ?_⟩
    intro other hother
    exact Directory.entry?_put_of_destination hplace program.bytes hother
  · intro program hprogram hplace
    exact runCommand_of_holdsProgram_of_no_file fuel request hwords hprogram
      hplace

/-- A jump to a label that is not defined, found when the bytes before it are
there already, leaves the output as it is; and a source can be its own
output. -/
theorem assemble_command_all_or_nothing_undefinedLabel :
    let directory := Directory.ofFiles
      [("-a.asm", "LOAD r0, 1\nJMP nowhere".toUTF8.data.toList),
        ("b.asm", "DB 7 ; data".toUTF8.data.toList), ("out", [1, 2, 3])]
    runCommand 0 (.ofText "") directory
        ["asm", "--output=out", "--", "-a.asm"] =
      some (⟨1, "", "Error: assembling -a.asm\n\nCaused by:\n" ++
        "    line 2: label `nowhere` not found\n"⟩, directory) ∧
    ∃ errors stored,
      runCommand 0 (.ofText "") directory
          ["asm", "--output=b.asm", "--", "b.asm"] =
        some (⟨0, "", errors⟩, stored) ∧
      stored.entry? ["b.asm"] = some (.file [7]) ∧
      stored.entry? ["out"] = some (.file [1, 2, 3]) := by
  intro directory
  have hlabel : assemble "LOAD r0, 1\nJMP nowhere" =
      .error ⟨2, .labelNotFound "nowhere"⟩ := by
    decide +kernel
  have hdata : assemble "DB 7 ; data" = .ok ⟨[7], []⟩ := by
    decide +kernel
  have hwords : Invocation.ofWords? ["asm", "--output=out", "--", "-a.asm"] =
      some (.assemble "-a.asm" "out") :=
    Invocation.ofWords?_assemble "-a.asm" "out" (by decide) (by decide)
  have hitself : Invocation.ofWords?
      ["asm", "--output=b.asm", "--", "b.asm"] =
        some (.assemble "b.asm" "b.asm") :=
    Invocation.ofWords?_assemble "b.asm" "b.asm" (by decide) (by decide)
  obtain ⟨hfails, -⟩ :=
    assemble_command_all_or_nothing hwords 0 (.ofText "") directory
  obtain ⟨-, hsaves, -, -⟩ :=
    assemble_command_all_or_nothing hitself 0 (.ofText "") directory
  obtain ⟨errors, stored, hrun, -, hfile, hothers⟩ :=
    hsaves ⟨[7], []⟩ ["b.asm"] ⟨_, by decide +kernel, hdata⟩ (by decide +kernel)
  refine ⟨?_, errors, stored, hrun, hfile, ?_⟩
  · rw [hfails _ (.rejected (by decide +kernel) hlabel)]
    decide +kernel
  · rw [hothers ["out"] (by decide)]
    decide +kernel

end ByteMachine
