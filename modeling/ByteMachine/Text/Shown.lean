/-!
# Bytes shown as text

Any bytes can be shown as text.  Where they encode characters in UTF-8, those
are shown, and every start of a character that breaks off, like every byte that
starts none, is shown as one replacement mark.
-/

namespace ByteMachine
namespace Text

/-- The mark shown where bytes are no text. -/
def replacement : Char := '\uFFFD'

/-- The bytes from `low` to `high`. -/
structure ByteRange where
  low : UInt8
  high : UInt8
  deriving DecidableEq, Repr

def ByteRange.contains (range : ByteRange) (byte : UInt8) : Bool :=
  range.low ≤ byte && byte ≤ range.high

/-- The range of the bytes that continue a character.  What the first byte of a
character was can restrict the second one further. -/
def continuation : ByteRange := ⟨0x80, 0xBF⟩

/-- The start of a character: the value of its bits so far, and where its other
bytes must lie. -/
structure CharStart where
  value : Nat
  next : ByteRange
  later : List ByteRange
  deriving DecidableEq, Repr

/-- The start of a character that a byte makes, where the character takes
further bytes. -/
def CharStart.ofByte? (byte : UInt8) : Option CharStart :=
  if byte < 0xC2 then none
  else if byte < 0xE0 then some ⟨byte.toNat % 32, continuation, []⟩
  else if byte = 0xE0 then some ⟨0, ⟨0xA0, 0xBF⟩, [continuation]⟩
  else if byte = 0xED then some ⟨13, ⟨0x80, 0x9F⟩, [continuation]⟩
  else if byte < 0xF0 then some ⟨byte.toNat % 16, continuation, [continuation]⟩
  else if byte = 0xF0 then some ⟨0, ⟨0x90, 0xBF⟩, [continuation, continuation]⟩
  else if byte < 0xF4 then
    some ⟨byte.toNat % 8, continuation, [continuation, continuation]⟩
  else if byte = 0xF4 then some ⟨4, ⟨0x80, 0x8F⟩, [continuation, continuation]⟩
  else none

/-- What is shown for a byte behind a complete character, and the start that is
left open. -/
def showFirst (byte : UInt8) : List Char × Option CharStart :=
  if byte < 0x80 then ([Char.ofNat byte.toNat], none)
  else
    match CharStart.ofByte? byte with
    | some start => ([], some start)
    | none => ([replacement], none)

/-- What is shown for a byte behind the start of a character, and the start that
is left open. -/
def showNext (start : CharStart) (byte : UInt8) :
    List Char × Option CharStart :=
  if start.next.contains byte then
    let value := start.value * 64 + byte.toNat % 64
    match start.later with
    | [] => ([Char.ofNat value], none)
    | next :: later => ([], some ⟨value, next, later⟩)
  else
    let (shown, left) := showFirst byte
    (replacement :: shown, left)

/-- Show bytes that follow the given start, if any. -/
def shownChars : Option CharStart → List UInt8 → List Char
  | none, [] => []
  | some _, [] => [replacement]
  | none, byte :: bytes =>
      let (shown, left) := showFirst byte
      shown ++ shownChars left bytes
  | some start, byte :: bytes =>
      let (shown, left) := showNext start byte
      shown ++ shownChars left bytes

def shown (bytes : List UInt8) : String :=
  String.ofList (shownChars none bytes)

end Text
end ByteMachine
