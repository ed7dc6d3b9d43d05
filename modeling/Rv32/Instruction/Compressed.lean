import Rv32.Instruction.Decode

/-!
# Compressed instructions

A compressed instruction of 16 bits stands for one of 32 bits. `Instruction.expand` gives the one
it stands for. Encodings of the architecture that have no effect, because they would write `x0`,
expand to instructions that write `x0`.
-/

namespace Rv32.Instruction

/-- The bits `high` down to `low` of a parcel. -/
def bits (parcel : Half) (high low : Nat) : BitVec (high - low + 1) := parcel.extractLsb high low

def compressedRd (parcel : Half) : Reg := bits parcel 11 7
def compressedRs2 (parcel : Half) : Reg := bits parcel 6 2

/-- The short register field in the bits 9 to 7. -/
def shortRs1 (parcel : Half) : Reg := Reg.ofShort (bits parcel 9 7)

/-- The short register field in the bits 4 to 2. -/
def shortRs2 (parcel : Half) : Reg := Reg.ofShort (bits parcel 4 2)

/-- The immediate of six bits, with its sign. -/
def immediateCI (parcel : Half) : BitVec 12 :=
  (bits parcel 12 12 ++ bits parcel 6 2 : BitVec 6).signExtend 12

/-- The upper immediate of six bits, with its sign. -/
def immediateLui (parcel : Half) : BitVec 20 :=
  (bits parcel 12 12 ++ bits parcel 6 2 : BitVec 6).signExtend 20

/-- The adjustment of the stack pointer, a multiple of sixteen with its sign. -/
def immediateAddi16sp (parcel : Half) : BitVec 12 :=
  (bits parcel 12 12 ++ bits parcel 4 3 ++ bits parcel 5 5 ++ bits parcel 2 2 ++
    bits parcel 6 6 ++ 0#4 : BitVec 10).signExtend 12

/-- The distance from the stack pointer, a multiple of four. -/
def immediateAddi4spn (parcel : Half) : BitVec 12 :=
  0#2 ++ bits parcel 10 7 ++ bits parcel 12 11 ++ bits parcel 5 5 ++ bits parcel 6 6 ++ 0#2

/-- The offset of a load or store through a short register. -/
def offsetCL (parcel : Half) : BitVec 12 :=
  0#5 ++ bits parcel 5 5 ++ bits parcel 12 10 ++ bits parcel 6 6 ++ 0#2

/-- The offset of a load from the stack. -/
def offsetLwsp (parcel : Half) : BitVec 12 :=
  0#4 ++ bits parcel 3 2 ++ bits parcel 12 12 ++ bits parcel 6 4 ++ 0#2

/-- The offset of a store to the stack. -/
def offsetSwsp (parcel : Half) : BitVec 12 :=
  0#4 ++ bits parcel 8 7 ++ bits parcel 12 9 ++ 0#2

/-- The offset of a jump, in halfwords. -/
def offsetCJ (parcel : Half) : BitVec 20 :=
  (bits parcel 12 12 ++ bits parcel 8 8 ++ bits parcel 10 9 ++ bits parcel 6 6 ++
    bits parcel 7 7 ++ bits parcel 2 2 ++ bits parcel 11 11 ++ bits parcel 5 3 :
    BitVec 11).signExtend 20

/-- The offset of a branch, in halfwords. -/
def offsetCB (parcel : Half) : BitVec 12 :=
  (bits parcel 12 12 ++ bits parcel 6 5 ++ bits parcel 2 2 ++ bits parcel 11 10 ++
    bits parcel 4 3 : BitVec 8).signExtend 12

/-- Instructions whose two lowest bits are `00`. -/
def expandQuadrant0 (parcel : Half) : Except DecodeError Instruction :=
  match bits parcel 15 13 with
  | 0b000 =>
    if immediateAddi4spn parcel = 0 then .error .reservedCompressed
    else .ok (.opImm .addi (shortRs2 parcel) Reg.sp (immediateAddi4spn parcel))
  | 0b010 => .ok (.load .lw (shortRs2 parcel) (shortRs1 parcel) (offsetCL parcel))
  | 0b110 => .ok (.store .word (shortRs2 parcel) (shortRs1 parcel) (offsetCL parcel))
  | _ => .error .illegal

/-- The adjustment of the stack pointer, or a load of an upper immediate. -/
def expandUpper (parcel : Half) : Except DecodeError Instruction :=
  let rd := compressedRd parcel
  if rd = Reg.sp then
    if immediateAddi16sp parcel = 0 then .error .reservedCompressed
    else .ok (.opImm .addi rd rd (immediateAddi16sp parcel))
  else if rd = Reg.zero then .ok nop
  else if immediateLui parcel = 0 then .error .reservedCompressed
  else .ok (.lui rd (immediateLui parcel))

/-- Operations on a short register, in place. -/
def expandArithmetic (parcel : Half) : Except DecodeError Instruction :=
  let rd := shortRs1 parcel
  let inPlace (op : RegOp) : Instruction := .opReg op rd rd (shortRs2 parcel)
  match bits parcel 11 10 with
  | 0b00 => .ok (.shiftImm .srli rd rd (bits parcel 6 2))
  | 0b01 => .ok (.shiftImm .srai rd rd (bits parcel 6 2))
  | 0b10 => .ok (.opImm .andi rd rd (immediateCI parcel))
  | 0b11 =>
    if bits parcel 12 12 ≠ 0 then .error .reservedCompressed
    else
      match bits parcel 6 5 with
      | 0b00 => .ok (inPlace .sub)
      | 0b01 => .ok (inPlace .xor)
      | 0b10 => .ok (inPlace .or)
      | 0b11 => .ok (inPlace .and)

/-- Instructions whose two lowest bits are `01`. -/
def expandQuadrant1 (parcel : Half) : Except DecodeError Instruction :=
  match bits parcel 15 13 with
  | 0b000 => .ok (.opImm .addi (compressedRd parcel) (compressedRd parcel) (immediateCI parcel))
  | 0b001 => .ok (.jal Reg.ra (offsetCJ parcel))
  | 0b010 => .ok (.opImm .addi (compressedRd parcel) Reg.zero (immediateCI parcel))
  | 0b011 => expandUpper parcel
  | 0b100 => expandArithmetic parcel
  | 0b101 => .ok (.jal Reg.zero (offsetCJ parcel))
  | 0b110 => .ok (.branch .beq (shortRs1 parcel) Reg.zero (offsetCB parcel))
  | 0b111 => .ok (.branch .bne (shortRs1 parcel) Reg.zero (offsetCB parcel))

/-- Jumps through a register, moves, additions and the breakpoint. -/
def expandJumpOrMove (parcel : Half) : Except DecodeError Instruction :=
  let rd := compressedRd parcel
  let rs2 := compressedRs2 parcel
  if bits parcel 12 12 = 0 then
    if rs2 = Reg.zero then
      if rd = Reg.zero then .error .reservedCompressed else .ok (.jalr Reg.zero rd 0)
    else .ok (.opReg .add rd Reg.zero rs2)
  else
    if rs2 = Reg.zero then
      if rd = Reg.zero then .ok .ebreak else .ok (.jalr Reg.ra rd 0)
    else .ok (.opReg .add rd rd rs2)

/-- Instructions whose two lowest bits are `10`. -/
def expandQuadrant2 (parcel : Half) : Except DecodeError Instruction :=
  match bits parcel 15 13 with
  | 0b000 =>
    .ok (.shiftImm .slli (compressedRd parcel) (compressedRd parcel) (bits parcel 6 2))
  | 0b010 =>
    if compressedRd parcel = Reg.zero then .error .reservedCompressed
    else .ok (.load .lw (compressedRd parcel) Reg.sp (offsetLwsp parcel))
  | 0b100 => expandJumpOrMove parcel
  | 0b110 => .ok (.store .word (compressedRs2 parcel) Reg.sp (offsetSwsp parcel))
  | _ => .error .illegal

/-- The instruction that a compressed one stands for. A parcel of zeros is never an
instruction. -/
def expand (parcel : Half) : Except DecodeError Instruction :=
  if parcel = 0 then .error .illegal
  else
    match bits parcel 1 0 with
    | 0b00 => expandQuadrant0 parcel
    | 0b01 => expandQuadrant1 parcel
    | 0b10 => expandQuadrant2 parcel
    | 0b11 => .error .illegal

end Rv32.Instruction
