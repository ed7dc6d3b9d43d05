import Rv32.Registers

/-!
# Instructions

The instructions of RV32IMA with Zicsr, Zifencei and the privileged instructions. Every operand has
the width of its encoding, so each value of `Instruction` can be written down in 32 bits. Offsets
of jumps and branches count halfwords.

A compressed instruction is one of these in a shorter encoding; only its length, which the hart
keeps apart, tells it from the long form.
-/

namespace Rv32

/-- Operations on a register and an immediate. -/
inductive ImmOp where
  | addi
  | slti
  | sltiu
  | xori
  | ori
  | andi
deriving DecidableEq, Repr

/-- Shifts by an immediate. -/
inductive ShiftOp where
  | slli
  | srli
  | srai
deriving DecidableEq, Repr

/-- Operations on two registers. -/
inductive RegOp where
  | add
  | slt
  | sltu
  | and
  | or
  | xor
  | sll
  | srl
  | sub
  | sra
  | mul
  | mulh
  | mulhsu
  | mulhu
  | div
  | divu
  | rem
  | remu
deriving DecidableEq, Repr

/-- Conditions of a branch. -/
inductive Condition where
  | beq
  | bne
  | blt
  | bltu
  | bge
  | bgeu
deriving DecidableEq, Repr

/-- Loads, by width and by how the value is widened to a word. -/
inductive LoadOp where
  | lb
  | lh
  | lw
  | lbu
  | lhu
deriving DecidableEq, Repr

/-- What happens to a control and status register. -/
inductive CsrOp where
  | readWrite
  | readSet
  | readClear
deriving DecidableEq, Repr

/-- How an atomic operation combines the word in memory with a register. -/
inductive AmoOp where
  | swap
  | add
  | xor
  | and
  | or
  | min
  | max
  | minu
  | maxu
deriving DecidableEq, Repr

/-- The kinds of access that one side of a fence orders. -/
structure FenceSet where
  input : Bool
  output : Bool
  reads : Bool
  writes : Bool
deriving DecidableEq, Repr

/-- A decoded instruction. -/
inductive Instruction where
  | opImm (op : ImmOp) (rd rs1 : Reg) (imm : BitVec 12)
  | shiftImm (op : ShiftOp) (rd rs1 : Reg) (shamt : BitVec 5)
  | auipc (rd : Reg) (imm : BitVec 20)
  | lui (rd : Reg) (imm : BitVec 20)
  | opReg (op : RegOp) (rd rs1 rs2 : Reg)
  | jal (rd : Reg) (offset : BitVec 20)
  | jalr (rd rs1 : Reg) (offset : BitVec 12)
  | branch (condition : Condition) (rs1 rs2 : Reg) (offset : BitVec 12)
  | load (op : LoadOp) (rd rs1 : Reg) (offset : BitVec 12)
  | store (width : Width) (rs2 rs1 : Reg) (offset : BitVec 12)
  | fence (predecessor successor : FenceSet)
  | fenceI
  | csr (op : CsrOp) (rd : Reg) (number : BitVec 12) (rs1 : Reg)
  | csrImm (op : CsrOp) (rd : Reg) (number : BitVec 12) (imm : BitVec 5)
  | loadReserved (rd rs1 : Reg)
  | storeConditional (rd rs1 rs2 : Reg)
  | amo (op : AmoOp) (rd rs1 rs2 : Reg)
  | ecall
  | ebreak
  | sret
  | mret
  | wfi
  | sfenceVma (rs1 rs2 : Reg)
deriving DecidableEq, Repr

namespace FenceSet

/-- The set written as four bits, `input` first. -/
def ofBits (bits : BitVec 4) : FenceSet :=
  ⟨bits.getLsbD 3, bits.getLsbD 2, bits.getLsbD 1, bits.getLsbD 0⟩

/-- The four bits of a set. -/
def toBits (set : FenceSet) : BitVec 4 :=
  BitVec.ofBool set.input ++ BitVec.ofBool set.output ++ BitVec.ofBool set.reads ++
    BitVec.ofBool set.writes

@[simp]
theorem ofBits_toBits (set : FenceSet) : ofBits set.toBits = set := by
  rcases set with ⟨input, output, reads, writes⟩
  cases input <;> cases output <;> cases reads <;> cases writes <;> rfl

@[simp]
theorem toBits_ofBits (bits : BitVec 4) : (ofBits bits).toBits = bits := by
  revert bits
  decide

end FenceSet

namespace Instruction

/-- The distance in bytes that a count of halfwords stands for. -/
def distance {bits : Nat} (halfwords : BitVec bits) : Word := (halfwords ++ 0#1).signExtend 32

/-- The word whose upper twenty bits are `imm`. -/
def upper (imm : BitVec 20) : Word := imm ++ 0#12

/-- The instruction that does nothing. -/
def nop : Instruction := .opImm .addi Reg.zero Reg.zero 0

end Instruction

end Rv32
