import ByteMachine.Assembly.SourceLine

/-!
# Cutting source text

The reader cuts a text into lines, and a line into labels and words.  Here the
opposite direction is described: `SpellsLine` says which texts a line with
given labels and words may be written as, with any padding, any gaps between
the words and any comment.  Cutting such a text gives the labels and the words
back.
-/

namespace ByteMachine

/-! ## Lines -/

namespace Text

/-- The first line ends at the first line feed. -/
theorem lines_append_newline
    {line : List Char} (hline : '\n' ∉ line) (rest : List Char) :
    lines (line ++ '\n' :: rest) = line :: lines rest := by
  have hne : rest.splitOn '\n' ≠ [] := List.splitOn_ne_nil _ _
  simp only [lines, List.splitOn_append_cons_self_of_not_mem hline,
    List.getLast?_cons_of_ne_nil hne, List.dropLast_cons_of_ne_nil hne]
  split <;> rfl

theorem lines_nil : lines [] = [] := by
  simp [lines, List.splitOn_eq_splitOnP]

/-- A last line need not be ended. -/
theorem lines_of_not_mem
    {line : List Char} (hline : '\n' ∉ line) (hne : line ≠ []) :
    lines line = [line] := by
  simp [lines, List.splitOn_eq_singleton hline, hne]

/-- Induction along the lines of a text. -/
theorem lines_induction
    {p : List Char → List (List Char) → Prop} (hnil : p [] [])
    (hlast : ∀ line, '\n' ∉ line → line ≠ [] → p line [line])
    (hcons : ∀ line rest more, '\n' ∉ line → p rest more →
      p (line ++ '\n' :: rest) (line :: more))
    (cs : List Char) : p cs (lines cs) := by
  induction hn : cs.length using Nat.strongRecOn generalizing cs with
  | ind n ih =>
      by_cases hfeed : '\n' ∈ cs
      · obtain ⟨line, rest, rfl, hline⟩ := List.eq_append_cons_of_mem hfeed
        have hshorter : rest.length < n := by
          rw [← hn, List.length_append, List.length_cons]
          omega
        rw [lines_append_newline hline]
        exact hcons line rest _ hline (ih _ hshorter rest rfl)
      · by_cases hne : cs = []
        · rw [hne, lines_nil]
          exact hnil
        · rw [lines_of_not_mem hfeed hne]
          exact hlast cs hfeed hne

theorem newline_not_mem_of_mem_lines (cs : List Char) :
    ∀ line ∈ lines cs, '\n' ∉ line := by
  refine lines_induction (p := fun _ more => ∀ line ∈ more, '\n' ∉ line)
    ?_ ?_ ?_ cs
  · simp
  · intro line hline _
    exact List.forall_mem_singleton.mpr hline
  · intro line _ more hline ih
    exact List.forall_mem_cons.mpr ⟨hline, ih⟩

/-! ## Blanks around a text -/

theorem dropWhile_isBlank_of_solid
    {text : List Char} (htext : ∀ c ∈ text, isBlank c = false)
    (hne : text ≠ []) (rest : List Char) :
    (text ++ rest).dropWhile isBlank = text ++ rest := by
  obtain ⟨first, more, rfl⟩ := List.exists_cons_of_ne_nil hne
  have hfirst : ¬isBlank first = true := by
    simp [htext first (by simp)]
  exact List.dropWhile_cons_of_neg hfirst

/-- Trimming takes away the blanks around a text that has none inside. -/
theorem trim_padded
    {before text after : List Char} (hbefore : ∀ c ∈ before, isBlank c = true)
    (htext : ∀ c ∈ text, isBlank c = false) (hne : text ≠ [])
    (hafter : ∀ c ∈ after, isBlank c = true) :
    trim (before ++ (text ++ after)) = text := by
  have hstart : trimStart (before ++ (text ++ after)) = text ++ after := by
    rw [trimStart, List.dropWhile_append_of_pos hbefore]
    exact dropWhile_isBlank_of_solid htext hne after
  have hend : (text ++ after).reverse.dropWhile isBlank = text.reverse := by
    rw [List.reverse_append,
      List.dropWhile_append_of_pos (by simpa using hafter)]
    have hreverse : ∀ c ∈ text.reverse, isBlank c = false := by
      simpa using htext
    simpa using dropWhile_isBlank_of_solid hreverse (by simpa using hne) []
  rw [trim, hstart, trimEnd, hend, List.reverse_reverse]

end Text

/-! ## Words -/

namespace SourceLine

/-- The characters that the words of source text are made of. -/
def isWordChar (c : Char) : Bool :=
  c.isAlphanum || c == '_' || c == '$'

/-- A word of source text. -/
structure IsWord (word : String) : Prop where
  ne_nil : word.toList ≠ []
  chars : ∀ c ∈ word.toList, isWordChar c = true

theorem toNat_of_isAlphanum
    {c : Char} (h : c.isAlphanum = true) :
    48 ≤ c.toNat ∧ c.toNat ≤ 57 ∨ 65 ≤ c.toNat ∧ c.toNat ≤ 90 ∨
      97 ≤ c.toNat ∧ c.toNat ≤ 122 := by
  unfold Char.isAlphanum Char.isAlpha Char.isUpper Char.isLower
    Char.isDigit at h
  simp only [Bool.or_eq_true, Bool.and_eq_true, decide_eq_true_eq,
    ge_iff_le, UInt32.le_iff_toNat_le] at h
  unfold Char.toNat
  change (65 ≤ c.val.toNat ∧ c.val.toNat ≤ 90 ∨
    97 ≤ c.val.toNat ∧ c.val.toNat ≤ 122) ∨
    48 ≤ c.val.toNat ∧ c.val.toNat ≤ 57 at h
  omega

theorem isBlank_eq_false_of_toNat
    {c : Char} (h : 32 < c.toNat ∧ c.toNat < 128) :
    Text.isBlank c = false := by
  simp only [Text.isBlank, Text.blankRanges, List.any_eq_false,
    Bool.and_eq_true, decide_eq_true_eq, List.forall_mem_cons,
    List.not_mem_nil, false_implies, implies_true, and_true]
  omega

/-- A character of a word ends neither a word nor a label nor a statement. -/
theorem plain_of_isWordChar
    {c : Char} (h : isWordChar c = true) :
    Text.isBlank c = false ∧ c ≠ ',' ∧ c ≠ ':' ∧ c ≠ ';' := by
  simp only [isWordChar, Bool.or_eq_true, beq_iff_eq] at h
  rcases h with (h | rfl) | rfl
  · have hrange := toNat_of_isAlphanum h
    refine ⟨isBlank_eq_false_of_toNat (by omega), ?_, ?_, ?_⟩ <;>
      · rintro rfl
        simp at hrange
  · decide
  · decide

theorem isSeparator_of_isWordChar
    {c : Char} (h : isWordChar c = true) : isSeparator c = false := by
  have hplain := plain_of_isWordChar h
  simp [isSeparator, hplain]

/-- A separator divides the words of a text. -/
theorem wordsOf_append_cons
    {c : Char} (hc : isSeparator c = true) (xs ys : List Char) :
    wordsOf (xs ++ c :: ys) = wordsOf xs ++ wordsOf ys := by
  simp only [wordsOf, List.splitOnP_append_cons xs ys hc, List.filter_append,
    List.map_append]

theorem wordsOf_nil : wordsOf [] = [] := by
  simp [wordsOf]

theorem wordsOf_separators_append
    {gap : List Char} (hgap : ∀ c ∈ gap, isSeparator c = true)
    (cs : List Char) : wordsOf (gap ++ cs) = wordsOf cs := by
  induction gap with
  | nil => rfl
  | cons c gap ih =>
      have hc : isSeparator c = true := hgap c (by simp)
      have hsplit := wordsOf_append_cons hc [] (gap ++ cs)
      rw [List.nil_append, wordsOf_nil, List.nil_append] at hsplit
      rw [List.cons_append, hsplit]
      exact ih fun d hd => hgap d (by simp [hd])

theorem wordsOf_separators
    {cs : List Char} (hcs : ∀ c ∈ cs, isSeparator c = true) :
    wordsOf cs = [] := by
  have happend := wordsOf_separators_append hcs []
  rwa [List.append_nil, wordsOf_nil] at happend

/-- A nonempty gap divides the words of a text. -/
theorem wordsOf_append_gap
    {gap : List Char} (hgap : ∀ c ∈ gap, isSeparator c = true)
    (hne : gap ≠ []) (xs ys : List Char) :
    wordsOf (xs ++ (gap ++ ys)) = wordsOf xs ++ wordsOf ys := by
  obtain ⟨c, gap, rfl⟩ := List.exists_cons_of_ne_nil hne
  have hc : isSeparator c = true := hgap c (by simp)
  rw [List.cons_append, wordsOf_append_cons hc,
    wordsOf_separators_append fun d hd => hgap d (by simp [hd])]

theorem wordsOf_append_separators
    {gap : List Char} (hgap : ∀ c ∈ gap, isSeparator c = true)
    (cs : List Char) : wordsOf (cs ++ gap) = wordsOf cs := by
  by_cases hne : gap = []
  · rw [hne, List.append_nil]
  · have hsplit := wordsOf_append_gap hgap hne cs []
    rw [List.append_nil, wordsOf_nil, List.append_nil] at hsplit
    exact hsplit

theorem wordsOf_word
    {word : String} (h : IsWord word) : wordsOf word.toList = [word] := by
  have hsplit : word.toList.splitOnP isSeparator = [word.toList] :=
    List.splitOnP_eq_singleton fun c hc =>
      isSeparator_of_isWordChar (h.chars c hc)
  have hne : word.toList.isEmpty = false := by
    simpa using h.ne_nil
  simp [wordsOf, hsplit, hne]

/-! ## Cutting a line -/

theorem withoutComment_of_not_mem
    {cs : List Char} (h : ';' ∉ cs) (rest : List Char) :
    withoutComment (cs ++ rest) = cs ++ withoutComment rest := by
  apply List.takeWhile_append_of_pos
  intro c hc
  simp only [bne_iff_ne, ne_eq]
  rintro rfl
  exact h hc

/-- What follows a semicolon does not count. -/
theorem ofText_append_comment
    (cs text : List Char) : ofText (cs ++ ';' :: text) = ofText cs := by
  have hcut : withoutComment (cs ++ ';' :: text) = withoutComment cs := by
    induction cs with
    | nil => rfl
    | cons c cs ih =>
        simp only [withoutComment] at ih ⊢
        simp only [List.cons_append, List.takeWhile_cons, ih]
  simp only [ofText, hcut]

/-- The part before a colon becomes a label. -/
theorem ofText_append_colon
    {part : List Char} (hcolon : ':' ∉ part) (hcomment : ';' ∉ part)
    (rest : List Char) :
    ofText (part ++ ':' :: rest) =
      ⟨String.ofList (Text.trim part) :: (ofText rest).labels,
        (ofText rest).words⟩ := by
  have hcut : withoutComment (':' :: rest) = ':' :: withoutComment rest := by
    simp [withoutComment]
  have hne : (withoutComment rest).splitOn ':' ≠ [] := List.splitOn_ne_nil _ _
  simp only [ofText, withoutComment_of_not_mem hcomment, hcut,
    List.splitOn_append_cons_self_of_not_mem hcolon,
    List.dropLast_cons_of_ne_nil hne, List.map_cons]
  congr 2
  obtain ⟨first, more, hparts⟩ := List.exists_cons_of_ne_nil hne
  rw [hparts]
  rfl

theorem ofText_of_not_mem
    {cs : List Char} (hcolon : ':' ∉ cs) (hcomment : ';' ∉ cs) :
    ofText cs = ⟨[], wordsOf cs⟩ := by
  have hcut := withoutComment_of_not_mem hcomment []
  rw [List.append_nil, show withoutComment [] = [] from rfl,
    List.append_nil] at hcut
  simp [ofText, hcut, List.splitOn_eq_singleton hcolon]

/-- A carriage return in front of the line feed does not count. -/
theorem ofText_append_return
    (cs : List Char) : ofText (cs ++ ['\r']) = ofText cs := by
  -- Each colon in front of the comment gives a label that the end of the line
  -- does not reach, so the induction is on the number of characters left.
  induction hn : cs.length using Nat.strongRecOn generalizing cs with
  | ind n ih =>
      by_cases hcomment : ';' ∈ cs
      · obtain ⟨body, text, rfl⟩ := List.append_of_mem hcomment
        rw [List.append_assoc, List.cons_append, ofText_append_comment,
          ofText_append_comment]
      · by_cases hcolon : ':' ∈ cs
        · obtain ⟨part, rest, rfl, hpart⟩ :=
            List.eq_append_cons_of_mem hcolon
          have hpartComment : ';' ∉ part := fun h =>
            hcomment (List.mem_append_left _ h)
          have hrest : rest.length < n := by
            rw [← hn, List.length_append, List.length_cons]
            omega
          rw [List.append_assoc, List.cons_append,
            ofText_append_colon hpart hpartComment,
            ofText_append_colon hpart hpartComment, ih _ hrest rest rfl]
        · rw [ofText_of_not_mem (by simpa using hcolon)
            (by simpa using hcomment), ofText_of_not_mem hcolon hcomment,
            wordsOf_append_separators (List.forall_mem_singleton.mpr rfl)]

/-! ## Spelled lines -/

/-- Spaces and tabs. -/
def Padding (cs : List Char) : Prop :=
  ∀ c ∈ cs, c = ' ' ∨ c = '\t'

instance (cs : List Char) : Decidable (Padding cs) :=
  List.decidableBAll _ cs

/-- Spaces, tabs and commas, at least one of them. -/
structure Gap (cs : List Char) : Prop where
  ne_nil : cs ≠ []
  chars : ∀ c ∈ cs, c = ' ' ∨ c = '\t' ∨ c = ','

instance (cs : List Char) : Decidable (Gap cs) :=
  letI := List.decidableBAll (fun c => c = ' ' ∨ c = '\t' ∨ c = ',') cs
  decidable_of_iff (cs ≠ [] ∧ ∀ c ∈ cs, c = ' ' ∨ c = '\t' ∨ c = ',')
    ⟨fun h => ⟨h.1, h.2⟩, fun h => ⟨h.ne_nil, h.chars⟩⟩

/-- The words of a statement with gaps between them. -/
inductive SpellsWords : List String → List Char → Prop
  | single (word : String) : SpellsWords [word] word.toList
  | cons (word : String) {gap : List Char} {words : List String}
      {cs : List Char} (hgap : Gap gap) (hrest : SpellsWords words cs) :
      SpellsWords (word :: words) (word.toList ++ (gap ++ cs))

/-- A line up to its comment: labels, each with a colon behind it, and then the
words of at most one statement, all of them padded. -/
inductive SpellsBody : List String → List String → List Char → Prop
  | blank {pad : List Char} (hpad : Padding pad) : SpellsBody [] [] pad
  | statement {before after cs : List Char} {words : List String}
      (hbefore : Padding before) (hwords : SpellsWords words cs)
      (hafter : Padding after) :
      SpellsBody [] words (before ++ (cs ++ after))
  | label {before after cs : List Char} {labels words : List String}
      (name : String) (hbefore : Padding before) (hafter : Padding after)
      (hrest : SpellsBody labels words cs) :
      SpellsBody (name :: labels) words
        (before ++ (name.toList ++ after) ++ ':' :: cs)

/-- A comment, if there is one, runs to the end of the line. -/
inductive SpellsComment : List Char → Prop
  | none : SpellsComment []
  | some {text : List Char} (htext : '\n' ∉ text) : SpellsComment (';' :: text)

/-- `cs` is a line with the given labels and words. -/
def SpellsLine (labels words : List String) (cs : List Char) : Prop :=
  ∃ body comment, SpellsBody labels words body ∧ SpellsComment comment ∧
    cs = body ++ comment

theorem Padding.isBlank
    {cs : List Char} (h : Padding cs) : ∀ c ∈ cs, Text.isBlank c = true := by
  intro c hc
  rcases h c hc with rfl | rfl <;> decide

theorem Padding.isSeparator
    {cs : List Char} (h : Padding cs) :
    ∀ c ∈ cs, SourceLine.isSeparator c = true := by
  intro c hc
  rcases h c hc with rfl | rfl <;> decide

theorem Gap.isSeparator
    {cs : List Char} (h : Gap cs) :
    ∀ c ∈ cs, SourceLine.isSeparator c = true := by
  intro c hc
  rcases h.chars c hc with rfl | rfl | rfl <;> decide

theorem SpellsWords.wordsOf_eq
    {words : List String} {cs : List Char}
    (hwords : ∀ word ∈ words, IsWord word) (h : SpellsWords words cs) :
    wordsOf cs = words := by
  induction h with
  | single word => exact wordsOf_word (hwords word (by simp))
  | cons word hgap hrest ih =>
      rw [wordsOf_append_gap hgap.isSeparator hgap.ne_nil,
        wordsOf_word (hwords word (by simp)),
        ih fun other hother => hwords other (by simp [hother])]
      rfl

/-- A character that is neither in words nor between them. -/
def IsForeign (c : Char) : Prop :=
  c ≠ ' ' ∧ c ≠ '\t' ∧ c ≠ ',' ∧ isWordChar c = false

instance (c : Char) : Decidable (IsForeign c) :=
  inferInstanceAs (Decidable (_ ∧ _))

theorem IsForeign.not_mem_padding
    {c : Char} (hc : IsForeign c) {cs : List Char} (h : Padding cs) :
    c ∉ cs := by
  intro hmem
  rcases h c hmem with rfl | rfl
  · exact hc.1 rfl
  · exact hc.2.1 rfl

theorem IsForeign.not_mem_word
    {c : Char} (hc : IsForeign c) {word : String} (h : IsWord word) :
    c ∉ word.toList := by
  intro hmem
  have hchar := h.chars c hmem
  rw [hc.2.2.2] at hchar
  cases hchar

theorem IsForeign.not_mem_words
    {c : Char} (hc : IsForeign c) {words : List String} {cs : List Char}
    (hwords : ∀ word ∈ words, IsWord word) (h : SpellsWords words cs) :
    c ∉ cs := by
  induction h with
  | single word => exact hc.not_mem_word (hwords word (by simp))
  | @cons word gap words cs hgap hrest ih =>
      have hnotGap : c ∉ gap := by
        intro hmem
        rcases hgap.chars c hmem with rfl | rfl | rfl
        · exact hc.1 rfl
        · exact hc.2.1 rfl
        · exact hc.2.2.1 rfl
      have hnotWord := hc.not_mem_word (hwords word (by simp))
      have hnotRest := ih fun other hother => hwords other (by simp [hother])
      simp only [List.mem_append, not_or]
      exact ⟨hnotWord, hnotGap, hnotRest⟩

theorem IsForeign.not_mem_label
    {c : Char} (hc : IsForeign c) {name : String} (hname : IsWord name)
    {before after : List Char} (hbefore : Padding before)
    (hafter : Padding after) : c ∉ before ++ (name.toList ++ after) := by
  simp only [List.mem_append, not_or]
  exact ⟨hc.not_mem_padding hbefore, hc.not_mem_word hname,
    hc.not_mem_padding hafter⟩

theorem IsForeign.not_mem_body
    {c : Char} (hc : IsForeign c) (hcolon : c ≠ ':')
    {labels words : List String} {cs : List Char}
    (hlabels : ∀ label ∈ labels, IsWord label)
    (hwords : ∀ word ∈ words, IsWord word) (h : SpellsBody labels words cs) :
    c ∉ cs := by
  induction h with
  | blank hpad => exact hc.not_mem_padding hpad
  | statement hbefore hspelled hafter =>
      simp only [List.mem_append, not_or]
      exact ⟨hc.not_mem_padding hbefore, hc.not_mem_words hwords hspelled,
        hc.not_mem_padding hafter⟩
  | label name hbefore hafter hrest ih =>
      have hnotLabel :=
        hc.not_mem_label (hlabels name (by simp)) hbefore hafter
      have hnotRest :=
        ih (fun other hother => hlabels other (by simp [hother])) hwords
      rw [List.mem_append, List.mem_cons]
      rintro (hmem | hmem | hmem)
      · exact hnotLabel hmem
      · exact hcolon hmem
      · exact hnotRest hmem

/-- Cutting a spelled line up to its comment. -/
theorem SpellsBody.ofText_eq
    {labels words : List String} {cs : List Char}
    (hlabels : ∀ label ∈ labels, IsWord label)
    (hwords : ∀ word ∈ words, IsWord word) (h : SpellsBody labels words cs) :
    ofText cs = ⟨labels, words⟩ := by
  have hcolon : IsForeign ':' := by decide
  have hcomment : IsForeign ';' := by decide
  induction h with
  | blank hpad =>
      rw [ofText_of_not_mem (hcolon.not_mem_padding hpad)
        (hcomment.not_mem_padding hpad), wordsOf_separators hpad.isSeparator]
  | @statement before after cs words hbefore hspelled hafter =>
      have hnot : ∀ {c : Char}, IsForeign c → c ∉ before ++ (cs ++ after) := by
        intro c hc
        simp only [List.mem_append, not_or]
        exact ⟨hc.not_mem_padding hbefore, hc.not_mem_words hwords hspelled,
          hc.not_mem_padding hafter⟩
      rw [ofText_of_not_mem (hnot hcolon) (hnot hcomment),
        wordsOf_separators_append hbefore.isSeparator,
        wordsOf_append_separators hafter.isSeparator,
        hspelled.wordsOf_eq hwords]
  | label name hbefore hafter hrest ih =>
      have hname := hlabels name (by simp)
      have htrim := Text.trim_padded hbefore.isBlank
        (fun c hc => (plain_of_isWordChar (hname.chars c hc)).1)
        hname.ne_nil hafter.isBlank
      rw [ofText_append_colon (hcolon.not_mem_label hname hbefore hafter)
        (hcomment.not_mem_label hname hbefore hafter), htrim,
        String.ofList_toList,
        ih (fun other hother => hlabels other (by simp [hother])) hwords]

/-- Cutting a spelled line gives its labels and words back. -/
theorem SpellsLine.ofText_eq
    {labels words : List String} {cs : List Char}
    (hlabels : ∀ label ∈ labels, IsWord label)
    (hwords : ∀ word ∈ words, IsWord word) (h : SpellsLine labels words cs) :
    ofText cs = ⟨labels, words⟩ := by
  obtain ⟨body, comment, hbody, hcomment, rfl⟩ := h
  cases hcomment with
  | none =>
      rw [List.append_nil]
      exact hbody.ofText_eq hlabels hwords
  | some htext =>
      rw [ofText_append_comment]
      exact hbody.ofText_eq hlabels hwords

/-- A spelled line holds no line feed. -/
theorem SpellsLine.newline_not_mem
    {labels words : List String} {cs : List Char}
    (hlabels : ∀ label ∈ labels, IsWord label)
    (hwords : ∀ word ∈ words, IsWord word) (h : SpellsLine labels words cs) :
    '\n' ∉ cs := by
  obtain ⟨body, comment, hbody, hcomment, rfl⟩ := h
  have hforeign : IsForeign '\n' := by decide
  have hnotBody := hforeign.not_mem_body (by decide) hlabels hwords hbody
  rw [List.mem_append, not_or]
  refine ⟨hnotBody, ?_⟩
  cases hcomment with
  | none => simp
  | some htext => simpa using htext

end SourceLine
end ByteMachine
