import Rv32.Instruction

/-!
# The arithmetic of instructions

What the operations compute from words. Sums, differences and products wrap; shifts use the low
five bits of their amount. A division by zero has all bits of its quotient set and the dividend as
remainder, and the one quotient that does not fit wraps round to the dividend.
-/

namespace Rv32

/-- A truth value as a word. -/
def boolWord (value : Bool) : Word := if value then 1 else 0

/-- The upper half of a product of 64 bits. -/
def upperHalf (product : DoubleWord) : Word := product.extractLsb' 32 32

def ImmOp.eval (op : ImmOp) (source imm : Word) : Word :=
  match op with
  | addi => source + imm
  | slti => boolWord (source.slt imm)
  | sltiu => boolWord (source.ult imm)
  | xori => source ^^^ imm
  | ori => source ||| imm
  | andi => source &&& imm

def ShiftOp.eval (op : ShiftOp) (source : Word) (amount : BitVec 5) : Word :=
  match op with
  | slli => source <<< amount
  | srli => source >>> amount
  | srai => source.sshiftRight' amount

def RegOp.eval (op : RegOp) (first second : Word) : Word :=
  match op with
  | add => first + second
  | sub => first - second
  | slt => boolWord (first.slt second)
  | sltu => boolWord (first.ult second)
  | and => first &&& second
  | or => first ||| second
  | xor => first ^^^ second
  | sll => ShiftOp.slli.eval first (second.setWidth 5)
  | srl => ShiftOp.srli.eval first (second.setWidth 5)
  | sra => ShiftOp.srai.eval first (second.setWidth 5)
  | mul => first * second
  | mulh => upperHalf (first.signExtend 64 * second.signExtend 64)
  | mulhsu => upperHalf (first.signExtend 64 * second.setWidth 64)
  | mulhu => upperHalf (first.setWidth 64 * second.setWidth 64)
  | div => if second = 0 then BitVec.allOnes 32 else first.sdiv second
  | divu => if second = 0 then BitVec.allOnes 32 else first.udiv second
  | rem => if second = 0 then first else first.srem second
  | remu => if second = 0 then first else first.umod second

/-- Whether a branch is taken. -/
def Condition.holds (condition : Condition) (first second : Word) : Bool :=
  match condition with
  | beq => first == second
  | bne => first != second
  | blt => first.slt second
  | bltu => first.ult second
  | bge => !first.slt second
  | bgeu => !first.ult second

/-- The width of a load. -/
def LoadOp.width : LoadOp → Width
  | lb => .byte
  | lh => .half
  | lw => .word
  | lbu => .byte
  | lhu => .half

/-- Widen a loaded value to a word. -/
def LoadOp.extend (op : LoadOp) (value : Word) : Word :=
  match op with
  | lb => (value.setWidth 8).signExtend 32
  | lh => (value.setWidth 16).signExtend 32
  | lw => value
  | lbu => value
  | lhu => value

/-- What an atomic operation stores, from the word in memory and that in the register. -/
def AmoOp.eval (op : AmoOp) (memory operand : Word) : Word :=
  match op with
  | swap => operand
  | add => memory + operand
  | xor => memory ^^^ operand
  | and => memory &&& operand
  | or => memory ||| operand
  | min => if operand.slt memory then operand else memory
  | max => if memory.slt operand then operand else memory
  | minu => if operand.ult memory then operand else memory
  | maxu => if memory.ult operand then operand else memory

/-- What is written to a control and status register, from its old value. -/
def CsrOp.eval (op : CsrOp) (old operand : Word) : Word :=
  match op with
  | readWrite => operand
  | readSet => old ||| operand
  | readClear => old &&& ~~~operand

end Rv32
