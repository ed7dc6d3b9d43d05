import Rv32.Word

/-!
# Registers

A hart has thirty-two registers `x0` to `x31`, of which `x0` is always zero, and the program
counter. `Registers.get` and `Registers.set` are the only ways a program reaches them.
-/

namespace Rv32

/-- The number of a register. -/
abbrev Reg := BitVec 5

namespace Reg

/-- The register that is always zero. -/
def zero : Reg := 0

/-- The link register of the calling convention. -/
def ra : Reg := 1

/-- The stack pointer of the calling convention. -/
def sp : Reg := 2

/-- The register named by a three-bit field, which reaches `x8` to `x15` only. -/
def ofShort (field : BitVec 3) : Reg := 0b01#2 ++ field

/-- The register with this number, if there is one. -/
def ofInt? (number : Int) : Option Reg :=
  if 0 ≤ number ∧ number < 32 then some (BitVec.ofInt 5 number) else none

/-- All registers in ascending order. -/
def all : List Reg := (List.range 32).map (BitVec.ofNat 5)

def name (register : Reg) : String := s!"x{register.toNat}"

end Reg

/-- The contents of the registers and the program counter. -/
structure Registers where
  x : Vector Word 32
  pc : Word
  x_zero : x[0] = 0
deriving DecidableEq

namespace Registers

/-- All registers zero, with the program counter at `pc`. -/
def reset (pc : Word) : Registers := ⟨Vector.replicate 32 0, pc, by simp⟩

/-- The registers with the given contents, except that `x0` is zero. -/
def ofVector (x : Vector Word 32) (pc : Word) : Registers := ⟨x.set 0 0, pc, by simp⟩

/-- The contents of a register. -/
def get (registers : Registers) (register : Reg) : Word := registers.x[register.toNat]

/-- The registers after a write, which `x0` ignores. -/
def set (registers : Registers) (register : Reg) (value : Word) : Registers :=
  if nonzero : register = Reg.zero then registers
  else
    { registers with
      x := registers.x.set register.toNat value register.isLt
      x_zero := by
        have index : register.toNat ≠ 0 := fun isZero => nonzero (BitVec.eq_of_toNat_eq isZero)
        rw [Vector.getElem_set_ne _ _ index]
        exact registers.x_zero }

@[simp]
theorem get_zero (registers : Registers) : registers.get Reg.zero = 0 := registers.x_zero

@[simp]
theorem pc_set (registers : Registers) (register : Reg) (value : Word) :
    (registers.set register value).pc = registers.pc := by
  unfold set
  split <;> rfl

/-- A write is seen in its own register, unless that is `x0`, and in no other. -/
theorem get_set (registers : Registers) (register other : Reg) (value : Word) :
    (registers.set register value).get other =
      if other = register ∧ register ≠ Reg.zero then value else registers.get other := by
  unfold set
  by_cases isZero : register = Reg.zero
  · simp [isZero]
  · rw [dif_neg isZero]
    by_cases same : other = register
    · subst same
      simp [get, isZero]
    · have index : register.toNat ≠ other.toNat :=
        fun equal => same (BitVec.eq_of_toNat_eq equal.symm)
      simp [get, same, Vector.getElem_set_ne, index]

end Registers

end Rv32
