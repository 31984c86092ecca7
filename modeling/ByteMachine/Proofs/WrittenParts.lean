import ByteMachine.Proofs.DigitRows
import ByteMachine.Proofs.FaultMessages
import ByteMachine.Text.Quoted
import ByteMachine.Yaml.Scalar
import Mathlib.Tactic.IntervalCases

/-!
# Parts of a written text

A text is put together from parts without a word about their lengths, so that a
part has to show by itself where it ends.  A numeral ends before the first
character that is no digit, a line before the line feed, and a quoted text
where no code of a further character can be read.  Wherever two texts agree,
their parts of this kind agree, and so does what stands behind them.
-/

namespace ByteMachine

/-- Entries of one class end before the first entry of another. -/
theorem append_inj_of_class
    {α : Type} {p : α → Bool} {front other rest more : List α}
    (hfront : ∀ a ∈ front, p a = true) (hother : ∀ a ∈ other, p a = true)
    (hrest : ∀ a ∈ rest.head?, p a = false)
    (hmore : ∀ a ∈ more.head?, p a = false)
    (h : front ++ rest = other ++ more) : front = other ∧ rest = more := by
  have hstops : ∀ {back : List α}, (∀ a ∈ back.head?, p a = false) →
      back.takeWhile p = [] := by
    intro back hback
    cases back with
    | nil => rfl
    | cons first back =>
        exact List.takeWhile_cons_of_neg (by simp [hback first rfl])
  have hclass := congrArg (List.takeWhile p) h
  rw [List.takeWhile_append_of_pos hfront, List.takeWhile_append_of_pos hother,
    hstops hrest, hstops hmore, List.append_nil, List.append_nil] at hclass
  exact List.append_inj h (congrArg List.length hclass)

/-- A line ends at the first line feed. -/
theorem line_append_inj
    {line other rest more : List Char} (hline : '\n' ∉ line)
    (hother : '\n' ∉ other) (h : line ++ '\n' :: rest = other ++ '\n' :: more) :
    line = other ∧ rest = more := by
  have hinside : ∀ {cs : List Char}, '\n' ∉ cs →
      ∀ c ∈ cs, (c != '\n') = true := by
    intro cs hcs c hc
    exact bne_iff_ne.mpr (ne_of_mem_of_not_mem hc hcs)
  obtain ⟨hfront, hback⟩ := append_inj_of_class (hinside hline)
    (hinside hother) (by simp) (by simp) h
  exact ⟨hfront, List.tail_eq_of_cons_eq hback⟩

/-! ## Numbers behind labels -/

namespace Numeral

theorem isDigit_of_mem_decimal
    {n : Nat} {c : Char} (h : c ∈ (decimal n).toList) : c.isDigit = true :=
  digit_lt_ten_iff.mp
    (((spells_decimal n).row (by decide) (by decide)).digits c h)

/-- A text that cannot go on with a numeral. -/
def endsNumeral (text : String) : Bool :=
  text.toList.head?.any fun c => !c.isDigit

theorem endsNumeral_append
    {text : String} (h : endsNumeral text = true) (more : String) :
    endsNumeral (text ++ more) = true := by
  rw [endsNumeral, Option.any_eq_true] at h
  obtain ⟨c, hfirst, hc⟩ := h
  simp [endsNumeral, String.toList_append, List.head?_append, hfirst, hc]

theorem decimal_append_inj
    {m n : Nat} {rest more : String} (hrest : endsNumeral rest = true)
    (hmore : endsNumeral more = true)
    (h : decimal m ++ rest = decimal n ++ more) : m = n ∧ rest = more := by
  have hchars := congrArg String.toList h
  simp only [String.toList_append] at hchars
  have hends : ∀ {text : String}, endsNumeral text = true →
      ∀ c ∈ text.toList.head?, c.isDigit = false := by
    intro text htext c hc
    rw [endsNumeral, Option.mem_def.mp hc] at htext
    simpa using htext
  obtain ⟨hnumeral, hback⟩ := append_inj_of_class
    (fun _ => isDigit_of_mem_decimal) (fun _ => isDigit_of_mem_decimal)
    (hends hrest) (hends hmore) hchars
  exact ⟨decimal_injective (String.toList_injective hnumeral),
    String.toList_injective hback⟩

/-- Numbers in a row, each behind its label. -/
def labelled (labels : List String) (numbers : List Nat) : String :=
  String.join (List.zipWith (fun label n => label ++ decimal n) labels numbers)

theorem labelled_cons
    (label : String) (labels : List String) (n : Nat) (numbers : List Nat) :
    labelled (label :: labels) (n :: numbers) =
      label ++ (decimal n ++ labelled labels numbers) := by
  simp [labelled, String.append_assoc]

theorem endsNumeral_labelled
    {labels : List String}
    (hlabels : ∀ label ∈ labels, endsNumeral label = true)
    {rest : String} (hrest : endsNumeral rest = true) (numbers : List Nat) :
    endsNumeral (labelled labels numbers ++ rest) = true := by
  cases labels with
  | nil => simpa [labelled] using hrest
  | cons label labels =>
      cases numbers with
      | nil => simpa [labelled] using hrest
      | cons n numbers =>
          have hlabel := hlabels label List.mem_cons_self
          rw [labelled_cons, String.append_assoc]
          exact endsNumeral_append hlabel _

/-- As many numbers as there are labels can be read off the text, because no
label goes on with the numeral in front of it. -/
theorem labelled_append_inj
    {labels : List String}
    (hlabels : ∀ label ∈ labels, endsNumeral label = true)
    {rest more : String} (hrest : endsNumeral rest = true)
    (hmore : endsNumeral more = true) {numbers others : List Nat}
    (hnumbers : numbers.length = labels.length)
    (hothers : others.length = labels.length)
    (h : labelled labels numbers ++ rest = labelled labels others ++ more) :
    numbers = others := by
  induction labels generalizing numbers others with
  | nil =>
      rw [List.eq_nil_of_length_eq_zero hnumbers,
        List.eq_nil_of_length_eq_zero hothers]
  | cons label labels ih =>
      obtain ⟨n, numbers, rfl⟩ := List.exists_cons_of_length_eq_add_one hnumbers
      obtain ⟨m, others, rfl⟩ := List.exists_cons_of_length_eq_add_one hothers
      obtain ⟨-, hlabels⟩ := List.forall_mem_cons.mp hlabels
      simp only [labelled_cons, String.append_assoc, String.append_right_inj]
        at h
      obtain ⟨rfl, hback⟩ := decimal_append_inj
        (endsNumeral_labelled hlabels hrest numbers)
        (endsNumeral_labelled hlabels hmore others) h
      rw [ih hlabels (Nat.succ.inj hnumbers) (Nat.succ.inj hothers) hback]

end Numeral

/-! ## Codes for characters -/

/-- Characters written by `code` can be read one by one with `next?`, which
finds no further one where `ending` stands. -/
structure ReadsCode (code : Char → List Char) (ending : List Char)
    (next? : List Char → Option (Char × List Char)) : Prop where
  next : ∀ c rest, next? (code c ++ rest) = some (c, rest)
  stops : ∀ rest, next? (ending ++ rest) = none

/-- A text in code tells its characters and where it ends. -/
theorem ReadsCode.inj
    {code : Char → List Char} {ending : List Char}
    {next? : List Char → Option (Char × List Char)}
    (hcode : ReadsCode code ending next?) {cs ds rest more : List Char}
    (h : cs.flatMap code ++ (ending ++ rest) =
      ds.flatMap code ++ (ending ++ more)) :
    cs = ds ∧ rest = more := by
  induction cs generalizing ds with
  | nil =>
      cases ds with
      | nil => exact ⟨rfl, List.append_cancel_left h⟩
      | cons d ds =>
          have hread := congrArg next? h
          rw [List.flatMap_nil, List.nil_append, hcode.stops, List.flatMap_cons,
            List.append_assoc, hcode.next] at hread
          cases hread
  | cons c cs ih =>
      have hread := congrArg next? h
      rw [List.flatMap_cons, List.append_assoc, hcode.next] at hread
      cases ds with
      | nil =>
          rw [List.flatMap_nil, List.nil_append, hcode.stops] at hread
          cases hread
      | cons d ds =>
          rw [List.flatMap_cons, List.append_assoc, hcode.next,
            Option.some.injEq, Prod.mk.injEq] at hread
          obtain ⟨rfl, hback⟩ := hread
          obtain ⟨rfl, hrest⟩ := ih hback
          exact ⟨rfl, hrest⟩

namespace Text

/-- The characters of the short escapes. -/
def shortEscapes : List (Char × Nat) :=
  [('"', 0x22), ('\\', 0x5C), ('b', 0x08), ('t', 0x09), ('n', 0x0A),
    ('f', 0x0C), ('r', 0x0D)]

/-- The first character between double quotes, and what follows it. -/
def unescape? : List Char → Option (Char × List Char)
  | '\\' :: 'u' :: a :: b :: c :: d :: rest =>
      (Numeral.ofDigits? 16 [a, b, c, d]).map fun code =>
        (Char.ofNat code, rest)
  | '\\' :: letter :: rest =>
      (shortEscapes.lookup letter).map fun code => (Char.ofNat code, rest)
  | '"' :: _ => none
  | c :: rest => some (c, rest)
  | [] => none

theorem unescape?_escape_of_control
    {c : Char} (h : c.toNat < 0x20) (rest : List Char) :
    unescape? (escape c ++ rest) = some (c, rest) := by
  have hall : ∀ k < 0x20,
      unescape? (escape (Char.ofNat k) ++ rest) =
        some (Char.ofNat k, rest) := by
    intro k hk
    interval_cases k <;> rfl
  have hcontrol := hall c.toNat h
  rwa [Char.ofNat_toNat] at hcontrol

theorem escape_of_not_control
    {c : Char} (h : ¬c.toNat < 0x20) (hquote : c ≠ '"') (hslash : c ≠ '\\') :
    escape c = [c] := by
  unfold escape
  simp only [hquote, hslash, if_false, h]
  repeat rw [if_neg (by omega)]

theorem readsCode_escape : ReadsCode escape ['"'] unescape? := by
  constructor
  · intro c rest
    by_cases hcontrol : c.toNat < 0x20
    · exact unescape?_escape_of_control hcontrol rest
    · by_cases hquote : c = '"'
      · subst hquote
        rfl
      · by_cases hslash : c = '\\'
        · subst hslash
          rfl
        · rw [escape_of_not_control hcontrol hquote hslash]
          simp [unescape?, hslash]
  · intro rest
    rfl

theorem doubleQuoted_append_inj
    {text other rest more : String}
    (h : doubleQuoted text ++ rest = doubleQuoted other ++ more) :
    text = other ∧ rest = more := by
  simp only [doubleQuoted, String.append_assoc, String.append_right_inj] at h
  have hchars := congrArg String.toList h
  simp only [String.toList_append, String.toList_ofList] at hchars
  obtain ⟨htext, hback⟩ := readsCode_escape.inj hchars
  exact ⟨String.toList_injective htext, String.toList_injective hback⟩

end Text

/-! ## Texts of one line in YAML -/

namespace Yaml

/-- A text without line ends in which every character stands for itself. -/
def IsLine (cs : List Char) : Prop :=
  ∀ c ∈ cs, isPrintable c = true ∧ isBreak c = false

theorem isLine_of_isVisible {text : String} (h : IsVisible text) :
    IsLine text.toList := by
  intro c hc
  obtain ⟨hlow, hhigh⟩ := h c hc
  constructor
  · simp [isPrintable, printableRanges, hlow, hhigh]
  · simp only [isBreak, Bool.or_eq_false_iff, decide_eq_false_iff_not]
    omega

section

variable {cs : List Char} (h : IsLine cs)
include h

theorem IsLine.newline_not_mem : '\n' ∉ cs := by
  intro hfeed
  have hbreak := (h '\n' hfeed).2
  cases hbreak

theorem IsLine.needsEscape_eq : needsEscape cs = false := by
  rw [needsEscape, List.any_eq_false]
  intro c hc
  simp [(h c hc).1]

/-- No line end stands beside another character. -/
theorem IsLine.of_mem_neighbours
    {pair : Char × Char} (hpair : pair ∈ neighbours cs) :
    isBreak pair.1 = false ∧ isBreak pair.2 = false := by
  obtain ⟨hfirst, hsecond⟩ := List.of_mem_zip hpair
  exact ⟨(h _ hfirst).2, (h _ (List.mem_of_mem_tail hsecond)).2⟩

theorem IsLine.allowsSingleQuotes_eq : allowsSingleQuotes cs = true := by
  have hbefore : hasBlankBeforeBreak cs = false := by
    rw [hasBlankBeforeBreak, List.any_eq_false]
    intro pair hpair
    simp [(h.of_mem_neighbours hpair).2]
  have hafter : hasBlankAfterBreak cs = false := by
    rw [hasBlankAfterBreak, List.any_eq_false]
    intro pair hpair
    simp [(h.of_mem_neighbours hpair).1]
  simp [allowsSingleQuotes, h.needsEscape_eq, hbefore, hafter]

theorem IsLine.style :
    Style.ofChars cs = .plain ∨ Style.ofChars cs = .singleQuoted := by
  have hfeed : cs.contains '\n' = false := by
    simpa using h.newline_not_mem
  rw [Style.ofChars, hfeed, h.allowsSingleQuotes_eq]
  by_cases hplain : (!isAmbiguous cs && allowsPlain cs) = true
  · simp [hplain]
  · simp [hplain]

theorem IsLine.indented_eq
    (width : Nat) {before : Char} (hbefore : isBreak before = false) :
    indented width before cs = cs := by
  induction cs generalizing before with
  | nil => rfl
  | cons c cs ih =>
      obtain ⟨hc, hcs⟩ := List.forall_mem_cons.mp h
      have hrest := ih hcs hc.2
      rw [indented] at hrest ⊢
      rw [List.zip_cons_cons, List.flatMap_cons, hrest]
      simp [hbefore]

end

/-- A character between single quotes. -/
def doubled (c : Char) : List Char :=
  if c = '\'' then ['\'', '\''] else [c]

/-- The first character between single quotes, and what follows it. -/
def undouble? : List Char → Option (Char × List Char)
  | '\'' :: '\'' :: rest => some ('\'', rest)
  | '\'' :: _ => none
  | c :: rest => some (c, rest)
  | [] => none

/-- The closing quote is told from a doubled one by the line end behind it. -/
theorem readsCode_doubled : ReadsCode doubled ['\'', '\n'] undouble? := by
  constructor
  · intro c rest
    by_cases hquote : c = '\''
    · subst hquote
      rfl
    · simp [doubled, undouble?, hquote]
  · intro rest
    rfl

theorem IsLine.flatMap_doubled
    {cs : List Char} (h : IsLine cs) : IsLine (cs.flatMap doubled) := by
  intro d hd
  obtain ⟨c, hc, hmem⟩ := List.mem_flatMap.mp hd
  have hsame : d = c := by
    by_cases hquote : c = '\''
    · simpa [doubled, hquote] using hmem
    · simpa [doubled, hquote] using hmem
  rw [hsame]
  exact h c hc

theorem IsLine.singleQuoted_eq
    {cs : List Char} (h : IsLine cs) (width : Nat) :
    singleQuoted width cs = '\'' :: (cs.flatMap doubled ++ ['\'']) := by
  have hinside : indented width '\'' (cs.flatMap doubled) =
      cs.flatMap doubled :=
    h.flatMap_doubled.indented_eq width (by decide)
  have hclosing : endsInBreak cs = false := by
    rw [endsInBreak, Option.any_eq_false]
    intro c hc
    simp [(h c (List.mem_of_getLast? hc)).2]
  change ['\''] ++ indented width '\'' (cs.flatMap doubled) ++
    (if endsInBreak cs then List.replicate width ' ' else []) ++ ['\''] = _
  simp [hinside, hclosing]

theorem startsWithIndicator_quote (rest : List Char) :
    startsWithIndicator ('\'' :: rest) = true := by
  have hquote : '\'' ∈ indicators := by decide
  cases rest with
  | nil => simp [startsWithIndicator, hquote]
  | cons next rest => simp [startsWithIndicator, hquote]

/-- A text that is written as it is does not start with a quote. -/
theorem head?_ne_quote_of_plain
    {cs : List Char} (h : Style.ofChars cs = .plain) :
    cs.head? ≠ some '\'' := by
  intro hquote
  obtain ⟨rest, rfl⟩ := List.head?_eq_some_iff.mp hquote
  have hplain : allowsPlain ('\'' :: rest) = false := by
    simp [allowsPlain, startsWithIndicator_quote]
  rw [Style.ofChars, hplain, Bool.and_false, if_neg Bool.false_ne_true] at h
  split at h
  · split at h <;> cases h
  · split at h <;> cases h

/-- The two ways to write a text of one line. -/
inductive WritesLine (cs : List Char) : List Char → Prop
  | plain (hquote : cs.head? ≠ some '\'') : WritesLine cs (cs ++ ['\n'])
  | quoted : WritesLine cs ('\'' :: (cs.flatMap doubled ++ ['\'', '\n']))

theorem IsLine.writesLine
    {text : String} (h : IsLine text.toList) (width : Nat) :
    WritesLine text.toList (scalarLine width text).toList := by
  rcases h.style with hplain | hquoted
  · simp only [scalarLine, scalarChars, hplain, String.toList_ofList,
      reduceCtorEq, false_and, if_false]
    exact .plain (head?_ne_quote_of_plain hplain)
  · simp only [scalarLine, scalarChars, hquoted, h.singleQuoted_eq,
      String.toList_ofList, reduceCtorEq, false_and, if_false, List.cons_append,
      List.append_assoc]
    exact .quoted

theorem head?_line_ne_quote
    {cs : List Char} (h : cs.head? ≠ some '\'') (rest : List Char) :
    (cs ++ ['\n'] ++ rest).head? ≠ some '\'' := by
  cases cs with
  | nil => simp
  | cons c cs => simpa using h

/-- The first character of a line tells whether it is quoted, and either way
the line tells its text. -/
theorem scalarLine_append_inj
    {text other rest more : String} {width : Nat} (htext : IsLine text.toList)
    (hother : IsLine other.toList)
    (h : scalarLine width text ++ rest = scalarLine width other ++ more) :
    text = other ∧ rest = more := by
  have hchars := congrArg String.toList h
  rw [String.toList_append, String.toList_append] at hchars
  suffices hboth : text.toList = other.toList ∧ rest.toList = more.toList from
    ⟨String.toList_injective hboth.1, String.toList_injective hboth.2⟩
  have hwritten := htext.writesLine width
  have hanother := hother.writesLine width
  generalize (scalarLine width text).toList = written at hwritten hchars
  generalize (scalarLine width other).toList = another at hanother hchars
  cases hwritten with
  | plain hfirst =>
      cases hanother with
      | plain =>
          rw [List.append_assoc, List.append_assoc] at hchars
          exact line_append_inj htext.newline_not_mem hother.newline_not_mem
            hchars
      | quoted =>
          exact absurd (congrArg List.head? hchars)
            (head?_line_ne_quote hfirst rest.toList)
  | quoted =>
      cases hanother with
      | plain hfirst =>
          exact absurd (congrArg List.head? hchars.symm)
            (head?_line_ne_quote hfirst more.toList)
      | quoted =>
          rw [List.cons_append, List.cons_append, List.cons.injEq,
            List.append_assoc, List.append_assoc] at hchars
          exact readsCode_doubled.inj hchars.2

end Yaml

end ByteMachine
