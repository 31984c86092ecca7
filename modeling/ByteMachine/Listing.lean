import ByteMachine.Instruction.Encoding

/-!
# Listings

A listing cuts a byte string into lines, each of which holds one instruction or
bytes that do not form one: a single byte that names no operation, or an
instruction cut off by the end of the string.  The lines cover the string
without gaps or overlap.
-/

namespace ByteMachine

structure ListingLine where
  /-- The position of the first byte. -/
  offset : Nat
  bytes : List UInt8
  /-- The instruction that the bytes encode, if they encode one. -/
  instruction : Option (Instruction Address)
  deriving DecidableEq, Repr

namespace ListingLine

/-- The line that starts with `first` and may take bytes from `rest`. -/
def ofBytes (offset : Nat) (first : UInt8) (rest : List UInt8) : ListingLine :=
  match decode first rest with
  | .ok decoded =>
      ⟨offset, first :: rest.take decoded.instruction.opcode.operandBytes,
        some decoded.instruction⟩
  | .error (.unknownOpcode _) => ⟨offset, [first], none⟩
  | .error (.truncated _) => ⟨offset, first :: rest, none⟩

/-- The statement column: the instruction, or the raw bytes as data. -/
def statementText (line : ListingLine) : String :=
  match line.instruction with
  | some instruction => instruction.text
  | none =>
      "DB " ++ String.intercalate ", "
        (line.bytes.map fun b => "0x" ++ Numeral.hexCapital 2 b.toNat)

/-- The byte column: the bytes in pairs of digits, filled with blanks to twelve
characters. -/
def bytesText (line : ListingLine) : String :=
  let digits :=
    String.intercalate " "
      (line.bytes.map fun b => Numeral.hexCapital 2 b.toNat)
  String.ofList (digits.toList.rightpad 12 ' ')

/-- A line as it is printed: offset, bytes and statement. -/
def text (line : ListingLine) : String :=
  Numeral.hexCapital 4 line.offset ++ "  " ++ line.bytesText ++ " " ++
    line.statementText

end ListingLine

namespace Listing

/-- The lines of a byte string that starts at `offset`, behind the lines found
so far. -/
def linesFrom (offset : Nat) (bytes : List UInt8) (found : Array ListingLine) :
    Array ListingLine :=
  match bytes with
  | [] => found
  | first :: rest =>
      let line := ListingLine.ofBytes offset first rest
      linesFrom (offset + line.bytes.length) (rest.drop (line.bytes.length - 1))
        (found.push line)
termination_by bytes.length
decreasing_by simp only [List.length_drop, List.length_cons]; omega

/-- The lines found so far stay in front. -/
theorem toList_linesFrom
    (offset : Nat) (bytes : List UInt8) (found : Array ListingLine) :
    (linesFrom offset bytes found).toList =
      found.toList ++ (linesFrom offset bytes #[]).toList := by
  induction hn : bytes.length using Nat.strongRecOn
    generalizing offset bytes found with
  | ind n ih =>
    cases bytes with
    | nil => simp [linesFrom]
    | cons first rest =>
      let line := ListingLine.ofBytes offset first rest
      have hlt : (rest.drop (line.bytes.length - 1)).length < n := by
        simp only [List.length_drop, ← hn, List.length_cons]
        omega
      rw [linesFrom, linesFrom, ih _ hlt _ _ (found.push line) rfl,
        ih _ hlt _ _ (#[].push line) rfl]
      simp [line]

def lines (bytes : List UInt8) : List ListingLine :=
  (linesFrom 0 bytes #[]).toList

/-- The source text of a listing: its statement column, bytes that form no
instruction as data. -/
def source (listing : List ListingLine) : String :=
  String.join (listing.map fun line => line.statementText ++ "\n")

/-- The source text of the instructions of a listing, one on each line; bytes
that form no instruction are left out. -/
def instructionSource (listing : List ListingLine) : String :=
  String.join (listing.filterMap fun line =>
    line.instruction.map fun instruction => instruction.text ++ "\n")

/-- A listing as it is printed, one line for each of its lines. -/
def text (listing : List ListingLine) : String :=
  String.join (listing.map fun line => line.text ++ "\n")

end Listing
end ByteMachine
