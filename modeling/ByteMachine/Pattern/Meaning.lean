import ByteMachine.Pattern.Basic
import ByteMachine.Pattern.Reader

/-!
# The meaning of written patterns

The pattern that a written pattern stands for.  Options take effect on
everything behind them up to the end of their group.  What patterns say about
classes, words and cases goes beyond ASCII unless an option takes that back, but
the data for it is not at hand: such patterns are refused, and so are properties
of any kind.
-/

namespace ByteMachine
namespace Pattern

/-- The options in effect. -/
structure Options where
  caseless : Bool := false
  multiline : Bool := false
  dotAll : Bool := false
  unicode : Bool := true
  anyEnding : Bool := false
  deriving DecidableEq, Repr

namespace Options

def set (options : Options) : Flag × Bool → Options
  | (.caseless, state) => { options with caseless := state }
  | (.multiline, state) => { options with multiline := state }
  | (.dotAll, state) => { options with dotAll := state }
  | (.unicode, state) => { options with unicode := state }
  | (.anyEnding, state) => { options with anyEnding := state }
  | (.swapGreed, _) => options
  | (.verbose, _) => options

/-- Give several options their states. -/
def change (options : Options) (change : FlagChange) : Options :=
  change.foldl set options

/-- A set with the other cases of its letters, where case does not matter. -/
def fold (options : Options) (set : CharSet) (span : Span) :
    Except Flaw CharSet :=
  if !options.caseless then .ok set
  else if options.unicode then fail .caseUnavailable span
  else .ok (.caseless set)

/-- A set or its complement.  Within ASCII no complement is possible, because it
would match parts of the characters beyond. -/
def negate (options : Options) (negated : Bool) (set : CharSet) (span : Span) :
    Except Flaw CharSet :=
  let set := if negated then .complement set else set
  if !options.unicode && set.contains '\x80' then
    fail .invalidText span
  else
    .ok set

/-- A character as it may stand in a class. -/
def classChar (options : Options) (c : Char) (asByte : Bool) (span : Span) :
    Except Flaw Char :=
  if options.unicode || c.toNat < 0x80 then .ok c
  else if asByte then fail .invalidText span
  else fail .unicodeNotAllowed span

/-- The characters of a class with a letter of its own. -/
def letterClass (options : Options) (kind : LetterClass) (negated : Bool)
    (span : Span) : Except Flaw CharSet :=
  if options.unicode then fail .letterClassUnavailable span
  else
    match kind with
    | .blank => options.negate negated .blank span
    | .digit => options.negate negated .digit span
    | .word => options.negate negated .word span

/-- A name without its case, blanks, dashes, underscores and a leading `is`. -/
def looseName (name : String) : String :=
  let small := name.toList.map Char.toLower
  let stem := if "is".toList.isPrefixOf small then small.drop 2 else small
  String.ofList (stem.filter fun c => c != ' ' && c != '_' && c != '-')

/-- Why the characters with a property are not available.  Three names are those
of values. -/
def property {α : Type} (options : Options) (name : String) (span : Span) :
    Except Flaw α :=
  if !options.unicode then
    fail .unicodeNotAllowed span
  else if ["cf", "sc", "lc"].contains (looseName name) then
    fail .propertyValueNotFound span
  else
    fail .propertyNotFound span

/-- The characters that an atom stands for in a class. -/
def classAtom (options : Options) (atom : Atom) (span : Span) :
    Except Flaw CharSet :=
  match atom with
  | .literal c asByte => do
      let c ← options.classChar c asByte span
      return .ofList [c]
  | .letterClass kind negated => options.letterClass kind negated span
  | .property name => options.property name span
  | _ => fail .classEscapeInvalid span

def operate (kind : SetOperation) (left right : CharSet) : CharSet :=
  match kind with
  | .intersection => .intersection left right
  | .difference => .difference left right
  | .symmetricDifference => .symmetricDifference left right

def classSet (options : Options) : ClassTree → Except Flaw CharSet
  | .empty => .ok .none
  | .atom atom span => options.classAtom atom span
  | .range first last firstAsByte lastAsByte firstSpan lastSpan => do
      let first ← options.classChar first firstAsByte firstSpan
      let last ← options.classChar last lastAsByte lastSpan
      return .ranges [(first.toNat, last.toNat)]
  | .named ranges negated span => do
      options.negate negated (← options.fold (.ranges ranges) span) span
  | .bracket negated content span => do
      let set ← options.classSet content
      options.negate negated (← options.fold set span) span
  | .union left right => do
      let left ← options.classSet left
      let right ← options.classSet right
      return .union left right
  | .operation kind left right leftSpan rightSpan => do
      let left ← options.classSet left
      let right ← options.classSet right
      let right ← options.fold right rightSpan
      let left ← options.fold left leftSpan
      return operate kind left right
  | .level content _ => options.classSet content

/-- The condition that a mark stands for, or none where it needs words beyond
ASCII. -/
def anchor? (options : Options) : AnchorMark → Option Anchor
  | .caret =>
      some
        (if options.multiline then .lineStart options.anyEnding else .textStart)
  | .dollar =>
      some (if options.multiline then .lineEnd options.anyEnding else .textEnd)
  | .textStart => some .textStart
  | .textEnd => some .textEnd
  | .wordBoundary => if options.unicode then none else some .wordBoundary
  | .noWordBoundary => if options.unicode then none else some .noWordBoundary
  | .wordStart => if options.unicode then none else some .wordStart
  | .wordEnd => if options.unicode then none else some .wordEnd
  | .noWordBefore => if options.unicode then none else some .noWordBefore
  | .noWordAfter => if options.unicode then none else some .noWordAfter

/-- The characters that a dot stands for. -/
def dot (options : Options) : CharSet :=
  if options.dotAll then .complement .none
  else if options.anyEnding then .complement (.ofList ['\n', '\r'])
  else .complement (.ofList ['\n'])

end Options

/-- What a written pattern stands for. -/
structure Meaning where
  pattern : Pattern
  /-- Whether it needs words beyond ASCII. -/
  needsWords : Bool := false
  deriving DecidableEq, Repr

namespace Meaning

def ofAtom (options : Options) (atom : Atom) (span : Span) :
    Except Flaw Meaning :=
  match atom with
  | .literal c asByte =>
      if !options.unicode && asByte && 0x80 ≤ c.toNat then
        fail .invalidText span
      else do
        let set ← options.fold (.ofList [c]) span
        return { pattern := .one set }
  | .dot =>
      if options.unicode then
        .ok { pattern := .one options.dot }
      else
        fail .invalidText span
  | .anchor mark =>
      match options.anchor? mark with
      | some anchor => .ok { pattern := .place anchor }
      | none => .ok { pattern := .empty, needsWords := true }
  | .letterClass kind negated => do
      let set ← options.letterClass kind negated span
      return { pattern := .one set }
  | .property name => options.property name span

def andThen (first second : Meaning) : Meaning :=
  ⟨first.pattern.andThen second.pattern, first.needsWords || second.needsWords⟩

def alt (left right : Meaning) : Meaning :=
  ⟨.alt left.pattern right.pattern, left.needsWords || right.needsWords⟩

/-- A repetition.  What is repeated zero times does not matter. -/
def times (body : Meaning) (least : Nat) (most : Option Nat) : Meaning :=
  if most = some 0 then { pattern := .empty }
  else ⟨.times body.pattern least most, body.needsWords⟩

end Meaning

/-- The meaning of a tree under some options, and the options behind it. -/
def Tree.meaning (options : Options) : Tree → Except Flaw (Meaning × Options)
  | empty => .ok ({ pattern := .empty }, options)
  | atom part span => do
      let meaning ← Meaning.ofAtom options part span
      return (meaning, options)
  | bracket content => do
      let set ← options.classSet content
      return ({ pattern := .one set }, options)
  | flags change => .ok ({ pattern := .empty }, options.change change)
  | group change body => do
      let (meaning, _) ← body.meaning (options.change change)
      return (meaning, options)
  | times body least most => do
      let (meaning, options) ← body.meaning options
      return (meaning.times least most, options)
  | seq first second => do
      let (first, options) ← first.meaning options
      let (second, options) ← second.meaning options
      return (first.andThen second, options)
  | alt left right => do
      let (left, options) ← left.meaning options
      let (right, options) ← right.meaning options
      return (left.alt right, options)
  | level content _ => content.meaning options

/-- An estimate of the bytes in which a set is kept. -/
def setWeight : CharSet → Nat
  | .ranges [(first, last)] => if first = last && first < 0x80 then 32 else 72
  | .ranges list => 64 + 8 * list.length
  | .complement set => 400 + setWeight set
  | .union left right => setWeight left + setWeight right
  | .intersection left right => setWeight left + setWeight right
  | .difference left right => setWeight left + setWeight right
  | .symmetricDifference left right => setWeight left + setWeight right
  | .caseless set => 40 + setWeight set

/-- An estimate of the bytes in which a pattern is kept once all repetitions in
it are written out. -/
def weight : Pattern → Nat
  | empty => 32
  | one set => setWeight set
  | place _ => 32
  | seq first second => first.weight + second.weight
  | alt left right => left.weight + right.weight + 40
  | times body least none => body.weight * max 1 least + 72
  | times body least (some most) =>
      body.weight * least + (body.weight + 40) * (most - least) + 32

/-- The greatest weight of a pattern. -/
def weightLimit : Nat := 10485760

/-- Why a text is no pattern. -/
inductive Refusal where
  | flawed (text : String) (flaw : Flaw)
  | tooLarge
  /-- The pattern needs words beyond ASCII. -/
  | wordsUnavailable
  deriving DecidableEq, Repr

def Refusal.message : Refusal → String
  | flawed text flaw => flaw.message text.toList
  | tooLarge =>
      "Compiled regex exceeds size limit of " ++ Numeral.decimal weightLimit ++
        " bytes."
  | wordsUnavailable => "error building NFA"

/-- The pattern that a text stands for. -/
def ofText? (text : String) : Except Refusal Pattern :=
  match (Tree.ofChars? text.toList).bind fun tree => tree.meaning {} with
  | .error flaw => .error (.flawed text flaw)
  | .ok (meaning, _) =>
      if weightLimit < meaning.pattern.weight then .error .tooLarge
      else if meaning.needsWords then .error .wordsUnavailable
      else .ok meaning.pattern

end Pattern
end ByteMachine
