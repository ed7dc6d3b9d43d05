import Rv32.Instruction

/-!
# Instructions as text

One line for each instruction: its kind, its operation and its operands in decimal. Immediates and
offsets are signed and count bytes.
-/

namespace Rv32

def ImmOp.text : ImmOp → String
  | addi => "Addi"
  | slti => "Slti"
  | sltiu => "Sltiu"
  | xori => "Xori"
  | ori => "Ori"
  | andi => "Andi"

def ShiftOp.text : ShiftOp → String
  | slli => "Slli"
  | srli => "Srli"
  | srai => "Srai"

def RegOp.text : RegOp → String
  | add => "Add"
  | slt => "Slt"
  | sltu => "Sltu"
  | and => "And"
  | or => "Or"
  | xor => "Xor"
  | sll => "Sll"
  | srl => "Srl"
  | sub => "Sub"
  | sra => "Sra"
  | mul => "Mul"
  | mulh => "Mulh"
  | mulhsu => "Mulhsu"
  | mulhu => "Mulhu"
  | div => "Div"
  | divu => "Divu"
  | rem => "Rem"
  | remu => "Remu"

def Condition.text : Condition → String
  | beq => "Beq"
  | bne => "Bne"
  | blt => "Blt"
  | bltu => "Bltu"
  | bge => "Bge"
  | bgeu => "Bgeu"

def LoadOp.text : LoadOp → String
  | lb => "Lb"
  | lh => "Lh"
  | lw => "Lw"
  | lbu => "Lbu"
  | lhu => "Lhu"

/-- The name of a store of this width. -/
def Width.storeText : Width → String
  | byte => "Sb"
  | half => "Sh"
  | word => "Sw"

def CsrOp.text : CsrOp → String
  | readWrite => "ReadWrite"
  | readSet => "ReadSet"
  | readClear => "ReadClear"

def AmoOp.text : AmoOp → String
  | swap => "Swap"
  | add => "Add"
  | xor => "Xor"
  | and => "And"
  | or => "Or"
  | min => "Min"
  | max => "Max"
  | minu => "Minu"
  | maxu => "Maxu"

/-- One letter for each kind of access in the set, and a dash for each that is not. -/
def FenceSet.text (set : FenceSet) : String :=
  let mark (present : Bool) (letter : Char) := if present then letter else '-'
  String.ofList
    [mark set.input 'i', mark set.output 'o', mark set.reads 'r', mark set.writes 'w']

namespace Instruction

def rdText (register : Reg) : String := s!" rd={register.toNat}"
def rs1Text (register : Reg) : String := s!" rs1={register.toNat}"
def rs2Text (register : Reg) : String := s!" rs2={register.toNat}"

/-- The instruction in words. -/
def text : Instruction → String
  | opImm op rd rs1 imm => "OpImm " ++ op.text ++ rdText rd ++ rs1Text rs1 ++ s!" imm={imm.toInt}"
  | shiftImm op rd rs1 shamt =>
    "OpShiftImm " ++ op.text ++ rdText rd ++ rs1Text rs1 ++ s!" shamt={shamt.toNat}"
  | auipc rd imm => "Auipc" ++ rdText rd ++ s!" imm={(upper imm).toInt}"
  | lui rd imm => "Lui" ++ rdText rd ++ s!" imm={(upper imm).toInt}"
  | opReg op rd rs1 rs2 => "Op " ++ op.text ++ rdText rd ++ rs1Text rs1 ++ rs2Text rs2
  | jal rd offset => "Jal" ++ rdText rd ++ s!" offset={(distance offset).toInt}"
  | jalr rd rs1 offset => "Jalr" ++ rdText rd ++ rs1Text rs1 ++ s!" offset={offset.toInt}"
  | branch condition rs1 rs2 offset =>
    "Branch " ++ condition.text ++ rs1Text rs1 ++ rs2Text rs2 ++
      s!" offset={(distance offset).toInt}"
  | load op rd rs1 offset =>
    "Load " ++ op.text ++ rdText rd ++ rs1Text rs1 ++ s!" offset={offset.toInt}"
  | store width rs2 rs1 offset =>
    "Store " ++ width.storeText ++ rs2Text rs2 ++ rs1Text rs1 ++ s!" offset={offset.toInt}"
  | fence predecessor successor => s!"Fence {predecessor.text} {successor.text}"
  | fenceI => "FenceI"
  | csr op rd number rs1 => "Csr " ++ op.text ++ rdText rd ++ s!" csr={number.toNat}" ++ rs1Text rs1
  | csrImm op rd number imm =>
    "Csri " ++ op.text ++ rdText rd ++ s!" csr={number.toNat} imm={imm.toNat}"
  | loadReserved rd rs1 => "LrW" ++ rdText rd ++ rs1Text rs1
  | storeConditional rd rs1 rs2 => "ScW" ++ rdText rd ++ rs1Text rs1 ++ rs2Text rs2
  | amo op rd rs1 rs2 => "Amo " ++ op.text ++ rdText rd ++ rs1Text rs1 ++ rs2Text rs2
  | ecall => "Ecall"
  | ebreak => "Ebreak"
  | sret => "Sret"
  | mret => "Mret"
  | wfi => "Wfi"
  | sfenceVma rs1 rs2 => "SfenceVma" ++ rs1Text rs1 ++ rs2Text rs2

end Instruction

end Rv32
