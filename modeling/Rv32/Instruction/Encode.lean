import Rv32.Instruction

/-!
# Encoding of instructions

`Instruction.encode` writes an instruction in 32 bits, in the formats that the architecture names
after the letters R, I, S, B, U and J. Bits that an instruction does not use are zero.
-/

namespace Rv32.Instruction

/-- The format with two source registers and one destination. -/
def formatR (funct7 : BitVec 7) (rs2 rs1 : Reg) (funct3 : BitVec 3) (rd : Reg)
    (opcode : BitVec 7) : Word :=
  funct7 ++ rs2 ++ rs1 ++ funct3 ++ rd ++ opcode

/-- The format with an immediate in place of the second source register. -/
def formatI (imm : BitVec 12) (rs1 : Reg) (funct3 : BitVec 3) (rd : Reg)
    (opcode : BitVec 7) : Word :=
  imm ++ rs1 ++ funct3 ++ rd ++ opcode

/-- The format with an immediate and no destination. -/
def formatS (imm : BitVec 12) (rs2 rs1 : Reg) (funct3 : BitVec 3) (opcode : BitVec 7) : Word :=
  imm.extractLsb' 5 7 ++ rs2 ++ rs1 ++ funct3 ++ imm.extractLsb' 0 5 ++ opcode

/-- The format of branches, whose offset of `imm` halfwords is spread over two fields. -/
def formatB (imm : BitVec 12) (rs2 rs1 : Reg) (funct3 : BitVec 3) (opcode : BitVec 7) : Word :=
  imm.extractLsb' 11 1 ++ imm.extractLsb' 4 6 ++ rs2 ++ rs1 ++ funct3 ++
    imm.extractLsb' 0 4 ++ imm.extractLsb' 10 1 ++ opcode

/-- The format with an immediate of twenty bits. -/
def formatU (imm : BitVec 20) (rd : Reg) (opcode : BitVec 7) : Word :=
  imm ++ rd ++ opcode

/-- The format of jumps, whose offset of `imm` halfwords is written in four pieces. -/
def formatJ (imm : BitVec 20) (rd : Reg) (opcode : BitVec 7) : Word :=
  imm.extractLsb' 19 1 ++ imm.extractLsb' 0 10 ++ imm.extractLsb' 10 1 ++
    imm.extractLsb' 11 8 ++ rd ++ opcode

end Rv32.Instruction

namespace Rv32

def ImmOp.funct3 : ImmOp → BitVec 3
  | addi => 0b000
  | slti => 0b010
  | sltiu => 0b011
  | xori => 0b100
  | ori => 0b110
  | andi => 0b111

def ShiftOp.funct : ShiftOp → BitVec 7 × BitVec 3
  | slli => (0b0000000, 0b001)
  | srli => (0b0000000, 0b101)
  | srai => (0b0100000, 0b101)

def RegOp.funct : RegOp → BitVec 7 × BitVec 3
  | add => (0b0000000, 0b000)
  | sll => (0b0000000, 0b001)
  | slt => (0b0000000, 0b010)
  | sltu => (0b0000000, 0b011)
  | xor => (0b0000000, 0b100)
  | srl => (0b0000000, 0b101)
  | or => (0b0000000, 0b110)
  | and => (0b0000000, 0b111)
  | sub => (0b0100000, 0b000)
  | sra => (0b0100000, 0b101)
  | mul => (0b0000001, 0b000)
  | mulh => (0b0000001, 0b001)
  | mulhsu => (0b0000001, 0b010)
  | mulhu => (0b0000001, 0b011)
  | div => (0b0000001, 0b100)
  | divu => (0b0000001, 0b101)
  | rem => (0b0000001, 0b110)
  | remu => (0b0000001, 0b111)

def Condition.funct3 : Condition → BitVec 3
  | beq => 0b000
  | bne => 0b001
  | blt => 0b100
  | bge => 0b101
  | bltu => 0b110
  | bgeu => 0b111

def LoadOp.funct3 : LoadOp → BitVec 3
  | lb => 0b000
  | lh => 0b001
  | lw => 0b010
  | lbu => 0b100
  | lhu => 0b101

def Width.funct3 : Width → BitVec 3
  | byte => 0b000
  | half => 0b001
  | word => 0b010

def CsrOp.funct : CsrOp → BitVec 2
  | readWrite => 0b01
  | readSet => 0b10
  | readClear => 0b11

def AmoOp.funct5 : AmoOp → BitVec 5
  | swap => 0b00001
  | add => 0b00000
  | xor => 0b00100
  | and => 0b01100
  | or => 0b01000
  | min => 0b10000
  | max => 0b10100
  | minu => 0b11000
  | maxu => 0b11100

namespace Instruction

/-- The 32 bits that stand for an instruction. -/
def encode : Instruction → Word
  | opImm op rd rs1 imm => formatI imm rs1 op.funct3 rd 0b0010011
  | shiftImm op rd rs1 shamt => formatR op.funct.1 shamt rs1 op.funct.2 rd 0b0010011
  | auipc rd imm => formatU imm rd 0b0010111
  | lui rd imm => formatU imm rd 0b0110111
  | opReg op rd rs1 rs2 => formatR op.funct.1 rs2 rs1 op.funct.2 rd 0b0110011
  | jal rd offset => formatJ offset rd 0b1101111
  | jalr rd rs1 offset => formatI offset rs1 0b000 rd 0b1100111
  | branch condition rs1 rs2 offset => formatB offset rs2 rs1 condition.funct3 0b1100011
  | load op rd rs1 offset => formatI offset rs1 op.funct3 rd 0b0000011
  | store width rs2 rs1 offset => formatS offset rs2 rs1 width.funct3 0b0100011
  | fence predecessor successor =>
    formatI (0#4 ++ predecessor.toBits ++ successor.toBits) 0 0b000 0 0b0001111
  | fenceI => formatI 0 0 0b001 0 0b0001111
  | csr op rd number rs1 => formatI number rs1 (0#1 ++ op.funct) rd 0b1110011
  | csrImm op rd number imm => formatI number imm (1#1 ++ op.funct) rd 0b1110011
  | loadReserved rd rs1 => formatR 0b0001000 0 rs1 0b010 rd 0b0101111
  | storeConditional rd rs1 rs2 => formatR 0b0001100 rs2 rs1 0b010 rd 0b0101111
  | amo op rd rs1 rs2 => formatR (op.funct5 ++ 0#2) rs2 rs1 0b010 rd 0b0101111
  | ecall => formatI 0x000 0 0b000 0 0b1110011
  | ebreak => formatI 0x001 0 0b000 0 0b1110011
  | sret => formatI 0x102 0 0b000 0 0b1110011
  | mret => formatI 0x302 0 0b000 0 0b1110011
  | wfi => formatI 0x105 0 0b000 0 0b1110011
  | sfenceVma rs1 rs2 => formatR 0b0001001 rs2 rs1 0b000 0 0b1110011

end Instruction

end Rv32
