import ByteMachine.Command.Run
import ByteMachine.Proofs.DigitRows
import ByteMachine.Proofs.ErrorLines
import ByteMachine.Proofs.ListingCover
import Mathlib.Data.List.Forall2

/-!
# Printed listings can be read back

A printed line shows its offset and its bytes in columns.  The column of the
bytes is filled up to twelve characters but not cut, so that its width rests on
the number of bytes on a line, which is four at most.  The offset may take more
than four digits; it ends at the first blank.  What is printed therefore tells
the offset and the bytes of every line, and so the whole byte string.
-/

namespace ByteMachine

/-! ## Capital digits -/

namespace Numeral

/-- A row of digits in radix sixteen with capital letters: `width` of them, or
more where the number does not fit. -/
structure CapitalRow (width n : Nat) (cs : List Char) : Prop where
  row : Row 16 n cs
  capital : ∀ c ∈ cs, c ∈ "0123456789ABCDEF".toList
  width_le : width ≤ cs.length
  length_eq : n < 16 ^ width → cs.length = width

theorem mem_capitals_of_mem_hexCapital
    {width n : Nat} {c : Char} (h : c ∈ (hexCapital width n).toList) :
    c ∈ "0123456789ABCDEF".toList := by
  rw [hexCapital, String.toList_ofList, List.leftpad, List.mem_append,
    List.mem_map] at h
  rcases h with hzero | ⟨digit, hdigit, rfl⟩
  · obtain rfl := List.eq_of_mem_replicate hzero
    decide
  · obtain ⟨d, hd, rfl⟩ :=
      exists_digitChar_of_mem_toDigits (by decide) (by decide) hdigit
    have hall : ∀ e ∈ List.range 16,
        e.digitChar.toUpper ∈ "0123456789ABCDEF".toList := by
      decide
    exact hall d (List.mem_range.mpr hd)

theorem capitalRow_hexCapital {width : Nat} (hwidth : 0 < width) (n : Nat) :
    CapitalRow width n (hexCapital width n).toList := by
  have hlength : (hexCapital width n).toList.length =
      max width (Nat.toDigits 16 n).length := by
    rw [hexCapital, String.toList_ofList, List.length_leftpad, List.length_map]
  refine ⟨(spells_hexCapital width n).row (by decide) (by decide),
    fun c => mem_capitals_of_mem_hexCapital, ?_, ?_⟩
  · rw [hlength]
    exact Nat.le_max_left _ _
  · intro hn
    rw [hlength]
    exact Nat.max_eq_left
      ((Nat.length_toDigits_le_iff (by decide) hwidth).mpr hn)

theorem CapitalRow.isWord
    {width n : Nat} {word : String} (h : CapitalRow width n word.toList) :
    SourceLine.IsWord word := by
  have hall : "0123456789ABCDEF".toList.all SourceLine.isWordChar = true := by
    decide
  refine ⟨h.row.ne_nil, ?_⟩
  intro c hc
  exact List.all_eq_true.mp hall c (h.capital c hc)

theorem CapitalRow.ofDigits?_eq
    {width n : Nat} {cs : List Char} (h : CapitalRow width n cs) :
    ofDigits? 16 cs = some n :=
  (ofDigits?_eq_some_iff (by decide)).mpr h.row

end Numeral

/-! ## Columns -/

namespace ListingLine

/-- The words for the bytes of a line, two digits each. -/
def PairsOf : List UInt8 → List String → Prop :=
  List.Forall₂ fun b pair =>
    Numeral.CapitalRow 2 b.toNat pair.toList ∧ pair.length = 2

/-- The columns of a printed line: the offset, two blanks, twelve characters for
the bytes, one blank and the statement. -/
structure Columns (line : ListingLine) (start field : String) : Prop where
  text : line.text = start ++ "  " ++ field ++ " " ++ line.statementText
  start : Numeral.CapitalRow 4 line.offset start.toList
  width : field.length = 12
  pairs : ∃ pairs blanks, PairsOf line.bytes pairs ∧
    field.toList =
      (String.intercalate " " pairs).toList ++ List.replicate blanks ' '

theorem pairsOf_hexCapital (bytes : List UInt8) :
    PairsOf bytes (bytes.map fun b => Numeral.hexCapital 2 b.toNat) := by
  rw [PairsOf, List.forall₂_map_right_iff, List.forall₂_same]
  intro b _
  have hrow := Numeral.capitalRow_hexCapital Nat.two_pos b.toNat
  exact ⟨hrow, hrow.length_eq b.toNat_lt⟩

theorem PairsOf.length_intercalate_le
    {bytes : List UInt8} {pairs : List String} (h : PairsOf bytes pairs) :
    (String.intercalate " " pairs).length ≤ 3 * bytes.length := by
  induction h with
  | nil => simp
  | @cons b pair bytes pairs hpair hpairs ih =>
      cases pairs with
      | nil =>
          rw [String.intercalate_singleton, hpair.2, List.length_cons]
          omega
      | cons next pairs =>
          rw [String.intercalate_cons_cons, String.length_append,
            String.length_append, hpair.2, List.length_cons]
          have hblank : " ".length = 1 := rfl
          omega

theorem PairsOf.isWord
    {bytes : List UInt8} {pairs : List String} (h : PairsOf bytes pairs) :
    ∀ pair ∈ pairs, SourceLine.IsWord pair := by
  induction h with
  | nil => simp
  | cons hpair _ ih => exact List.forall_mem_cons.mpr ⟨hpair.1.isWord, ih⟩

/-- A line with four bytes at most fills its columns. -/
theorem columns {line : ListingLine} (h : line.bytes.length ≤ 4) :
    line.Columns (Numeral.hexCapital 4 line.offset) line.bytesText := by
  have hpairs := pairsOf_hexCapital line.bytes
  have hlength := hpairs.length_intercalate_le
  refine ⟨rfl, Numeral.capitalRow_hexCapital (by decide) _, ?_, ?_⟩
  · rw [bytesText, String.length_ofList, List.length_rightpad,
      String.length_toList]
    omega
  · rw [bytesText, String.toList_ofList]
    exact ⟨_, _, hpairs, rfl⟩

theorem length_bytes_ofBytes_le
    (offset : Nat) (first : UInt8) (rest : List UInt8) :
    (ofBytes offset first rest).bytes.length ≤ 4 := by
  rcases ofBytes_cases offset first rest with
    ⟨instruction, -, hline⟩ | ⟨-, hline⟩ | ⟨operation, -, hshort, hline⟩
  · have hmost := instruction.opcode.operandBytes_le
    rw [hline, Instruction.length_encode, Instruction.size]
    omega
  · rw [hline, List.length_singleton]
    decide
  · have hmost := operation.operandBytes_le
    rw [hline, List.length_cons]
    omega

end ListingLine

theorem Listing.length_bytes_le (bytes : List UInt8) :
    ∀ line ∈ Listing.lines bytes, line.bytes.length ≤ 4 := by
  refine linesFrom_induction
    (p := fun _ _ lines => ∀ line ∈ lines, line.bytes.length ≤ 4) ?_ ?_ 0 bytes
  · simp
  · intro offset first rest lines ih
    exact List.forall_mem_cons.mpr
      ⟨ListingLine.length_bytes_ofBytes_le offset first rest, ih⟩

/-! ## Reading back -/

theorem mapM_eq_some_of_forall₂
    {α β : Type} {f : α → Option β} {xs : List α} {ys : List β}
    (h : List.Forall₂ (fun x y => f x = some y) xs ys) :
    xs.mapM f = some ys := by
  induction h with
  | nil => rfl
  | cons hhead _ ih => simp [List.mapM_cons, hhead, ih]

namespace ListingLine

/-- The byte that a pair of digits stands for. -/
def readPair? (pair : String) : Option UInt8 :=
  (Numeral.ofDigits? 16 pair.toList).map UInt8.ofNat

/-- The offset and the bytes that a printed line shows: the offset up to the
first blank, and the bytes in the twelve characters behind two blanks. -/
def readBack? (cs : List Char) : Option (Nat × List UInt8) := do
  let digits := cs.takeWhile fun c => c != ' '
  let field := (cs.drop (digits.length + 2)).take 12
  let offset ← Numeral.ofDigits? 16 digits
  let bytes ← (SourceLine.wordsOf field).mapM readPair?
  return (offset, bytes)

theorem PairsOf.mapM_readPair?
    {bytes : List UInt8} {pairs : List String} (h : PairsOf bytes pairs) :
    pairs.mapM readPair? = some bytes := by
  apply mapM_eq_some_of_forall₂
  apply List.Forall₂.flip
  apply h.imp
  intro b pair hpair
  show readPair? pair = some b
  simp [readPair?, hpair.1.ofDigits?_eq]

theorem PairsOf.spellsWords
    {bytes : List UInt8} {pairs : List String} (h : PairsOf bytes pairs)
    (hne : bytes ≠ []) :
    SourceLine.SpellsWords pairs (String.intercalate " " pairs).toList := by
  cases h with
  | nil => exact absurd rfl hne
  | cons => exact spellsWords_intercalate (by decide) _ _

section

variable {line : ListingLine} {start field : String}
  (h : line.Columns start field)
include h

/-- The column of the bytes is filled with blanks: its words are the pairs. -/
theorem Columns.wordsOf_field (hne : line.bytes ≠ []) :
    PairsOf line.bytes (SourceLine.wordsOf field.toList) ∧
      '\n' ∉ field.toList := by
  obtain ⟨pairs, blanks, hpairs, hfield⟩ := h.pairs
  have hspelled := hpairs.spellsWords hne
  have hpad : SourceLine.Padding (List.replicate blanks ' ') := by
    intro c hc
    exact .inl (List.eq_of_mem_replicate hc)
  have hforeign : SourceLine.IsForeign '\n' := by decide
  rw [hfield, SourceLine.wordsOf_append_separators hpad.isSeparator,
    hspelled.wordsOf_eq hpairs.isWord, List.mem_append, not_or]
  exact ⟨hpairs, hforeign.not_mem_words hpairs.isWord hspelled,
    hforeign.not_mem_padding hpad⟩

theorem Columns.readBack?_eq (hne : line.bytes ≠ []) :
    readBack? line.text.toList = some (line.offset, line.bytes) := by
  have htext : line.text.toList = start.toList ++
      (' ' :: ' ' :: (field.toList ++ (' ' :: line.statementText.toList))) := by
    simp [h.text, String.toList_append]
  have hstart : ∀ c ∈ start.toList, (c != ' ') = true := by
    intro c hc
    have hcapital := h.start.capital c hc
    simp only [bne_iff_ne, ne_eq]
    rintro rfl
    exact absurd hcapital (by decide)
  have hdigits : line.text.toList.takeWhile (fun c => c != ' ') =
      start.toList := by
    rw [htext, List.takeWhile_append_of_pos hstart]
    simp
  have hfield : (line.text.toList.drop (start.toList.length + 2)).take 12 =
      field.toList := by
    rw [htext, List.drop_length_add_append]
    exact List.take_left' (by rw [String.length_toList, h.width])
  simp [readBack?, hdigits, hfield, h.start.ofDigits?_eq,
    (h.wordsOf_field hne).1.mapM_readPair?]

end

theorem newline_not_mem_text
    {line : ListingLine} (htile : line.IsTile) (h : line.bytes.length ≤ 4) :
    '\n' ∉ line.text.toList := by
  have hcolumns := columns h
  have hforeign : SourceLine.IsForeign '\n' := by decide
  have hstart := hforeign.not_mem_word hcolumns.start.isWord
  have hfield := (hcolumns.wordsOf_field htile.ne_nil).2
  have hstatement := (spellsLine_statementText htile).newline_not_mem (by simp)
    line.isWord_of_mem_words
  simp [hcolumns.text, String.toList_append, hstart, hfield, hstatement]

end ListingLine

namespace Listing

/-- The offsets and the bytes that a printed listing shows, line by line. -/
def readBack? (text : String) : Option (List (Nat × List UInt8)) :=
  (Text.lines text.toList).mapM ListingLine.readBack?

/-- The byte string that a printed listing shows. -/
def content? (text : String) : Option (List UInt8) :=
  (readBack? text).map fun shown => shown.flatMap Prod.snd

theorem lines_text (bytes : List UInt8) :
    Text.lines (text (lines bytes)).toList =
      (lines bytes).map fun line => line.text.toList := by
  have hfeed : ∀ shown ∈ (lines bytes).map fun line => line.text.toList,
      '\n' ∉ shown := by
    rw [List.forall_mem_map]
    intro line hline
    exact ListingLine.newline_not_mem_text
      (isTile_of_mem_lines bytes line hline) (length_bytes_le bytes line hline)
  rw [← Text.lines_flatMap_newline hfeed, List.flatMap_map, text,
    String.toList_join, List.flatMap_map]
  simp [String.toList_append]

theorem readBack?_text (bytes : List UInt8) :
    readBack? (text (lines bytes)) =
      some ((lines bytes).map fun line => (line.offset, line.bytes)) := by
  rw [readBack?, lines_text]
  apply mapM_eq_some_of_forall₂
  rw [List.forall₂_map_left_iff, List.forall₂_map_right_iff, List.forall₂_same]
  intro line hline
  exact (ListingLine.columns (length_bytes_le bytes line hline)).readBack?_eq
    (isTile_of_mem_lines bytes line hline).ne_nil

theorem content?_text (bytes : List UInt8) :
    content? (text (lines bytes)) = some bytes := by
  rw [content?, readBack?_text, Option.map_some, List.flatMap_map]
  exact congrArg some (flatMap_bytes_lines bytes)

/-- Different byte strings print differently. -/
theorem text_lines_injective :
    Function.Injective fun bytes => text (lines bytes) := by
  intro first second h
  have hcontent := congrArg content? h
  simpa [content?_text] using hcontent

end Listing

/-- A command that lists a file prints the listing of its content, and leaves
all files alone. -/
theorem runCommand_of_list
    {directory : Directory} {words : List String} {file : String}
    {content : List UInt8} (fuel : Nat) (request : LogRequest)
    (hwords : Invocation.ofWords? words = some (.list file))
    (hread : directory.read file = .ok content) :
    runCommand fuel request directory words =
      some (⟨0, Listing.text (Listing.lines content), request.warnings⟩,
        directory) := by
  have hplan : Invocation.plan (directory.read file) (.list file) =
      .respond ⟨0, Listing.text (Listing.lines content), ""⟩ := by
    simp [Invocation.plan, Invocation.plan?, Invocation.require, hread,
      Except.mapError]
  rw [runCommand, hwords]
  simp [Invocation.content, Invocation.input?, hplan, Plan.carryOut,
    Response.after]

/-- The lines of a listing are printed in columns, and the first two columns
tell the offset and the bytes of each line.  Two byte strings never print the
same listing, and what a command that lists a file prints tells the content of
the file. -/
theorem printed_listing_lossless :
    (∀ bytes, ∀ line ∈ Listing.lines bytes,
      ∃ start field, line.Columns start field) ∧
    (∀ bytes, Listing.readBack? (Listing.text (Listing.lines bytes)) =
      some ((Listing.lines bytes).map fun line => (line.offset, line.bytes))) ∧
    (∀ first second, first ≠ second →
      Listing.text (Listing.lines first) ≠
        Listing.text (Listing.lines second)) ∧
    ∀ fuel request directory words file content,
      Invocation.ofWords? words = some (.list file) →
      directory.read file = .ok content →
      ∃ response, runCommand fuel request directory words =
          some (response, directory) ∧
        response.exitCode = 0 ∧
        response.output = Listing.text (Listing.lines content) ∧
        Listing.content? response.output = some content := by
  refine ⟨?_, Listing.readBack?_text, ?_, ?_⟩
  · intro bytes line hline
    exact ⟨_, _, ListingLine.columns (Listing.length_bytes_le bytes line hline)⟩
  · intro first second hne
    exact Listing.text_lines_injective.ne hne
  · intro fuel request directory words file content hwords hread
    exact ⟨_, runCommand_of_list fuel request hwords hread, rfl, rfl,
      Listing.content?_text content⟩

/-- Two instructions and a byte that names no operation. -/
theorem printed_listing_lossless_undecoded :
    let directory := Directory.ofFiles [("a.bin", [2, 0, 1, 2, 255, 0])]
    ∃ response, runCommand 0 (.ofText "") directory ["disasm", "a.bin"] =
        some (response, directory) ∧
      response.output =
        "0000  02 00 01 02  ADD r0, r1, r2\n" ++
          "0004  FF           DB 0xFF\n" ++
          "0005  00           HALT\n" ∧
      Listing.content? response.output = some [2, 0, 1, 2, 255, 0] := by
  intro directory
  obtain ⟨-, -, -, hcommand⟩ := printed_listing_lossless
  obtain ⟨response, hresponse, -, houtput, hcontent⟩ :=
    hcommand 0 (.ofText "") directory ["disasm", "a.bin"] "a.bin"
      [2, 0, 1, 2, 255, 0] (by decide +kernel) (by decide +kernel)
  exact ⟨response, hresponse, houtput.trans (by decide +kernel), hcontent⟩

end ByteMachine
