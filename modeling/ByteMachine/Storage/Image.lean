import ByteMachine.Fault

/-!
# The memory image

The memory of a machine: 256 cells that hold the program.  Instructions never
write to it; it changes only as a whole, by loading and clearing.
-/

namespace ByteMachine

/-- The number of cells of a memory image. -/
abbrev Image.capacity : Nat := 256

structure Image where
  cells : Vector UInt8 Image.capacity
  deriving DecidableEq

namespace Image

/-- The image of zeros. -/
def blank : Image :=
  ⟨Vector.replicate capacity 0⟩

def clear (image : Image) : Image :=
  { image with cells := Vector.replicate capacity 0 }

/-- The byte at an address, for an address inside the image. -/
def read? (image : Image) (address : Address) : Option UInt8 :=
  image.cells[address.toNat]?

/-- Put a program over the first cells and keep all cells behind it. -/
def overlay (image : Image) (program : List UInt8) : Image :=
  ⟨Vector.ofFn fun i => program.getD i.val image.cells[i]⟩

/-- A cell of an overlaid image holds the program's byte, or what it held before
where the program has none. -/
theorem read?_overlay
    (image : Image) (program : List UInt8) (address : Address) :
    (image.overlay program).read? address =
      (image.read? address).map fun old => program.getD address.toNat old := by
  by_cases h : address.toNat < capacity
  · simp [overlay, read?, h]
  · simp [overlay, read?, h]

/-- Load a program; one with more bytes than there are cells is rejected. -/
def load (image : Image) (program : List UInt8) : Except LoadError Image :=
  if program.length ≤ capacity then
    .ok (image.overlay program)
  else
    .error ⟨program.length, capacity⟩

end Image
end ByteMachine
