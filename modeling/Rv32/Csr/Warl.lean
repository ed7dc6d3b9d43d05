import Rv32.Word

/-!
# Registers that take any value and hold a legal one

Most control and status registers implement a fixed set of bits: software may write anything, the
other bits stay zero, and what is read is always legal. The architecture calls this behaviour WARL.
`Warl legal` is such a register, and its invariant is part of the type.
-/

namespace Rv32

/-- A register in which only the bits of `legal` can be set. -/
structure Warl (legal : Word) where
  bits : Word
  bits_legal : bits &&& legal = bits
deriving DecidableEq

namespace Warl

variable {legal : Word}

/-- The register after a write of `value`. -/
def ofWord (legal value : Word) : Warl legal :=
  ⟨value &&& legal, by rw [BitVec.and_assoc, BitVec.and_self]⟩

/-- The register after a reset. -/
def zero : Warl legal := ofWord legal 0

instance : Inhabited (Warl legal) := ⟨zero⟩

/-- The register after a write of those bits of `value` that `selected` names. -/
def merge (register : Warl legal) (value selected : Word) : Warl legal :=
  ofWord legal (register.bits &&& ~~~selected ||| value &&& selected)

@[ext]
theorem eq_of_bits {first second : Warl legal} (same : first.bits = second.bits) :
    first = second := by
  cases first
  cases second
  cases same
  rfl

@[simp]
theorem bits_ofWord (value : Word) : (ofWord legal value).bits = value &&& legal := rfl

/-- Writing back what was read changes nothing. -/
@[simp]
theorem ofWord_bits (register : Warl legal) : ofWord legal register.bits = register :=
  eq_of_bits register.bits_legal

@[simp]
theorem bits_zero : (zero : Warl legal).bits = 0 := BitVec.zero_and

end Warl

end Rv32
