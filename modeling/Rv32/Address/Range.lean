import Rv32.Word
import Rv32.Text.Hex

/-!
# Address ranges

A range of physical addresses is given by its first and its last address, both of which belong to
it. So a range is never empty, and one range can be the whole address space.
-/

namespace Rv32

/-- A non-empty run of addresses, both ends included. -/
structure AddressRange where
  first : Word
  last : Word
  first_le_last : first ≤ last
deriving DecidableEq, Repr

/-- Refusal of two addresses of which the second lies before the first. -/
structure InvalidBounds where
  first : Word
  last : Word
deriving DecidableEq, Repr

namespace InvalidBounds

def message (error : InvalidBounds) : String :=
  s!"bounds [{Hex.short error.first.toNat}, {Hex.short error.last.toNat}] " ++
    "do not form a valid 32-bit address range"

end InvalidBounds

namespace AddressRange

/-- The range from `first` to `last`. -/
def ofBounds (first last : Word) : Except InvalidBounds AddressRange :=
  if ordered : first ≤ last then .ok ⟨first, last, ordered⟩ else .error ⟨first, last⟩

/-- The `length` addresses from `first` on: there must be at least one, and the last of them must
not pass the end of the address space. -/
def ofLength (first length : Word) : Except InvalidBounds AddressRange :=
  if fits : 0 < length.toNat ∧ first.toNat + length.toNat ≤ 0x100000000 then
    .ok ⟨first, first + (length - 1), by
      have first_lt := first.isLt
      have length_lt := length.isLt
      have one : (1 : Word).toNat = 1 := rfl
      rw [BitVec.le_def, BitVec.toNat_add, BitVec.toNat_sub, one]
      omega⟩
  else .error ⟨first, first + length - 1⟩

/-- Whether `address` lies in the range. -/
def contains (range : AddressRange) (address : Word) : Bool :=
  decide (range.first ≤ address) && decide (address ≤ range.last)

/-- Whether two ranges share an address. -/
def overlaps (range other : AddressRange) : Bool :=
  decide (range.first ≤ other.last) && decide (other.first ≤ range.last)

/-- The distance from the first to the last address. -/
def delta (range : AddressRange) : Word := range.last - range.first

/-- The number of addresses, at most `2 ^ 32`. -/
def size (range : AddressRange) : Nat := range.delta.toNat + 1

/-- The distance of an address from the start of the range. -/
def offsetOf (range : AddressRange) (address : Word) : Word := address - range.first

def text (range : AddressRange) : String :=
  s!"[{Hex.short range.first.toNat}, {Hex.short range.last.toNat}]"

theorem contains_iff {range : AddressRange} {address : Word} :
    range.contains address = true ↔ range.first ≤ address ∧ address ≤ range.last := by
  simp [contains]

theorem overlaps_comm (range other : AddressRange) :
    range.overlaps other = other.overlaps range := by
  simp [overlaps, Bool.and_comm]

end AddressRange

end Rv32
