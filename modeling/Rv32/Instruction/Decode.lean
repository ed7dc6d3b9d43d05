import Rv32.Instruction

/-!
# Decoding of 32-bit instructions

`Instruction.decode` reads an instruction off the fields of a word: first the opcode, then the
function fields that belong to it. Ordering bits of atomic operations and the reserved fields of
`fence` are ignored.
-/

namespace Rv32

/-- Why a bit pattern is not an instruction. -/
inductive DecodeError where
  | unsupportedOpcode
  | illegal
  | reservedCompressed
deriving DecidableEq, Repr

namespace DecodeError

def message : DecodeError → String
  | unsupportedOpcode => "instruction has unsupported opcode"
  | illegal => "illegal instruction"
  | reservedCompressed => "reserved compressed instruction encoding"

end DecodeError

namespace Instruction

/-- Instructions of 32 bits have their two lowest bits set, compressed ones have not. -/
def isCompressed (parcel : Half) : Bool := parcel.extractLsb' 0 2 != 0b11

def fieldOpcode (word : Word) : BitVec 7 := word.extractLsb' 0 7
def fieldRd (word : Word) : Reg := word.extractLsb' 7 5
def fieldFunct3 (word : Word) : BitVec 3 := word.extractLsb' 12 3
def fieldRs1 (word : Word) : Reg := word.extractLsb' 15 5
def fieldRs2 (word : Word) : Reg := word.extractLsb' 20 5
def fieldFunct5 (word : Word) : BitVec 5 := word.extractLsb' 27 5
def fieldFunct7 (word : Word) : BitVec 7 := word.extractLsb' 25 7

def immediateI (word : Word) : BitVec 12 := word.extractLsb' 20 12

def immediateS (word : Word) : BitVec 12 := word.extractLsb' 25 7 ++ word.extractLsb' 7 5

def immediateB (word : Word) : BitVec 12 :=
  word.extractLsb' 31 1 ++ word.extractLsb' 7 1 ++ word.extractLsb' 25 6 ++ word.extractLsb' 8 4

def immediateU (word : Word) : BitVec 20 := word.extractLsb' 12 20

def immediateJ (word : Word) : BitVec 20 :=
  word.extractLsb' 31 1 ++ word.extractLsb' 12 8 ++ word.extractLsb' 20 1 ++
    word.extractLsb' 21 10

/-- An operation on a register and an immediate, or else a shift by one. -/
def decodeOpImm (word : Word) : Except DecodeError Instruction :=
  let imm (op : ImmOp) : Except DecodeError Instruction :=
    .ok (.opImm op (fieldRd word) (fieldRs1 word) (immediateI word))
  let shift (op : ShiftOp) : Except DecodeError Instruction :=
    .ok (.shiftImm op (fieldRd word) (fieldRs1 word) (fieldRs2 word))
  match fieldFunct3 word with
  | 0b000 => imm .addi
  | 0b010 => imm .slti
  | 0b011 => imm .sltiu
  | 0b100 => imm .xori
  | 0b110 => imm .ori
  | 0b111 => imm .andi
  | 0b001 => if fieldFunct7 word = 0b0000000 then shift .slli else .error .illegal
  | 0b101 =>
    if fieldFunct7 word = 0b0000000 then shift .srli
    else if fieldFunct7 word = 0b0100000 then shift .srai
    else .error .illegal

/-- The operation on two registers that the function fields name. -/
def regOp? (funct7 : BitVec 7) (funct3 : BitVec 3) : Option RegOp :=
  if funct7 = 0b0000000 then
    match funct3 with
    | 0b000 => some .add
    | 0b001 => some .sll
    | 0b010 => some .slt
    | 0b011 => some .sltu
    | 0b100 => some .xor
    | 0b101 => some .srl
    | 0b110 => some .or
    | 0b111 => some .and
  else if funct7 = 0b0100000 then
    match funct3 with
    | 0b000 => some .sub
    | 0b101 => some .sra
    | _ => none
  else if funct7 = 0b0000001 then
    match funct3 with
    | 0b000 => some .mul
    | 0b001 => some .mulh
    | 0b010 => some .mulhsu
    | 0b011 => some .mulhu
    | 0b100 => some .div
    | 0b101 => some .divu
    | 0b110 => some .rem
    | 0b111 => some .remu
  else none

def condition? : BitVec 3 → Option Condition
  | 0b000 => some .beq
  | 0b001 => some .bne
  | 0b100 => some .blt
  | 0b101 => some .bge
  | 0b110 => some .bltu
  | 0b111 => some .bgeu
  | _ => none

def loadOp? : BitVec 3 → Option LoadOp
  | 0b000 => some .lb
  | 0b001 => some .lh
  | 0b010 => some .lw
  | 0b100 => some .lbu
  | 0b101 => some .lhu
  | _ => none

def storeWidth? : BitVec 3 → Option Width
  | 0b000 => some .byte
  | 0b001 => some .half
  | 0b010 => some .word
  | _ => none

def amoOp? : BitVec 5 → Option AmoOp
  | 0b00001 => some .swap
  | 0b00000 => some .add
  | 0b00100 => some .xor
  | 0b01100 => some .and
  | 0b01000 => some .or
  | 0b10000 => some .min
  | 0b10100 => some .max
  | 0b11000 => some .minu
  | 0b11100 => some .maxu
  | _ => none

/-- The fences. That of the instruction stream must have all its unused fields zero. -/
def decodeFence (word : Word) : Except DecodeError Instruction :=
  if fieldFunct3 word = 0b000 then
    .ok (.fence (FenceSet.ofBits (word.extractLsb' 24 4)) (FenceSet.ofBits (word.extractLsb' 20 4)))
  else if word = 0x0000100F then .ok .fenceI
  else .error .illegal

/-- The atomic operations, all of which are on words. -/
def decodeAtomic (word : Word) : Except DecodeError Instruction :=
  let rd := fieldRd word
  let rs1 := fieldRs1 word
  let rs2 := fieldRs2 word
  if fieldFunct3 word ≠ 0b010 then .error .illegal
  else if fieldFunct5 word = 0b00010 then
    if rs2 = Reg.zero then .ok (.loadReserved rd rs1) else .error .illegal
  else if fieldFunct5 word = 0b00011 then .ok (.storeConditional rd rs1 rs2)
  else
    match amoOp? (fieldFunct5 word) with
    | some op => .ok (.amo op rd rs1 rs2)
    | none => .error .illegal

/-- The privileged instructions, which have no destination. -/
def decodePrivileged (word : Word) : Except DecodeError Instruction :=
  if fieldRd word ≠ Reg.zero then .error .illegal
  else if fieldFunct7 word = 0b0001001 then .ok (.sfenceVma (fieldRs1 word) (fieldRs2 word))
  else if fieldRs1 word ≠ Reg.zero then .error .illegal
  else
    match immediateI word with
    | 0x000 => .ok .ecall
    | 0x001 => .ok .ebreak
    | 0x102 => .ok .sret
    | 0x302 => .ok .mret
    | 0x105 => .ok .wfi
    | _ => .error .illegal

/-- The privileged instructions and the accesses to control and status registers. -/
def decodeSystem (word : Word) : Except DecodeError Instruction :=
  let csr (op : CsrOp) : Except DecodeError Instruction :=
    .ok (.csr op (fieldRd word) (immediateI word) (fieldRs1 word))
  let csrImm (op : CsrOp) : Except DecodeError Instruction :=
    .ok (.csrImm op (fieldRd word) (immediateI word) (fieldRs1 word))
  match fieldFunct3 word with
  | 0b000 => decodePrivileged word
  | 0b001 => csr .readWrite
  | 0b010 => csr .readSet
  | 0b011 => csr .readClear
  | 0b100 => .error .illegal
  | 0b101 => csrImm .readWrite
  | 0b110 => csrImm .readSet
  | 0b111 => csrImm .readClear

/-- The instruction that a word stands for. -/
def decode (word : Word) : Except DecodeError Instruction :=
  match fieldOpcode word with
  | 0b0000011 =>
    match loadOp? (fieldFunct3 word) with
    | some op => .ok (.load op (fieldRd word) (fieldRs1 word) (immediateI word))
    | none => .error .illegal
  | 0b0001111 => decodeFence word
  | 0b0010011 => decodeOpImm word
  | 0b0010111 => .ok (.auipc (fieldRd word) (immediateU word))
  | 0b0100011 =>
    match storeWidth? (fieldFunct3 word) with
    | some width => .ok (.store width (fieldRs2 word) (fieldRs1 word) (immediateS word))
    | none => .error .illegal
  | 0b0101111 => decodeAtomic word
  | 0b0110011 =>
    match regOp? (fieldFunct7 word) (fieldFunct3 word) with
    | some op => .ok (.opReg op (fieldRd word) (fieldRs1 word) (fieldRs2 word))
    | none => .error .illegal
  | 0b0110111 => .ok (.lui (fieldRd word) (immediateU word))
  | 0b1100011 =>
    match condition? (fieldFunct3 word) with
    | some condition =>
      .ok (.branch condition (fieldRs1 word) (fieldRs2 word) (immediateB word))
    | none => .error .illegal
  | 0b1100111 =>
    if fieldFunct3 word = 0b000 then
      .ok (.jalr (fieldRd word) (fieldRs1 word) (immediateI word))
    else .error .illegal
  | 0b1101111 => .ok (.jal (fieldRd word) (immediateJ word))
  | 0b1110011 => decodeSystem word
  | _ => .error .unsupportedOpcode

end Instruction

end Rv32
