import Rv32.Instruction.Decode
import Rv32.Instruction.Encode

/-!
# Decoding what was encoded

Every instruction has a word that decodes to it (`Instruction.decode_encode`). For each format one
lemma reads the fields of a word back; an instruction is then found by the fields that name it.
-/

namespace Rv32.Instruction

/-! ## The fields of the formats -/

section Formats

variable (funct7 opcode : BitVec 7) (rs2 rs1 rd : Reg) (funct3 : BitVec 3)

theorem fields_formatR :
    let word := formatR funct7 rs2 rs1 funct3 rd opcode
    fieldOpcode word = opcode ∧ fieldRd word = rd ∧ fieldFunct3 word = funct3 ∧
      fieldRs1 word = rs1 ∧ fieldRs2 word = rs2 ∧ fieldFunct7 word = funct7 ∧
      fieldFunct5 word = funct7.extractLsb' 2 5 := by
  refine ⟨?_, ?_, ?_, ?_, ?_, ?_, ?_⟩ <;>
    simp (disch := decide) only [fieldOpcode, fieldRd, fieldFunct3, fieldRs1, fieldRs2, fieldFunct7,
      fieldFunct5, formatR, BitVec.extractLsb'_append_eq_of_le,
      BitVec.extractLsb'_append_eq_of_add_le, BitVec.extractLsb'_eq_self, Nat.reduceSub]

theorem fields_formatI (imm : BitVec 12) :
    let word := formatI imm rs1 funct3 rd opcode
    fieldOpcode word = opcode ∧ fieldRd word = rd ∧ fieldFunct3 word = funct3 ∧
      fieldRs1 word = rs1 ∧ immediateI word = imm := by
  refine ⟨?_, ?_, ?_, ?_, ?_⟩ <;>
    simp (disch := decide) only [fieldOpcode, fieldRd, fieldFunct3, fieldRs1, immediateI, formatI,
      BitVec.extractLsb'_append_eq_of_le, BitVec.extractLsb'_append_eq_of_add_le,
      BitVec.extractLsb'_eq_self, Nat.reduceSub]

theorem predecessor_formatI (predecessor successor : BitVec 4) :
    (formatI (0#4 ++ predecessor ++ successor) rs1 funct3 rd opcode).extractLsb' 24 4 =
      predecessor := by
  simp (disch := decide) only [formatI, BitVec.extractLsb'_append_eq_of_le,
    BitVec.extractLsb'_append_eq_of_add_le, BitVec.extractLsb'_eq_self, Nat.reduceSub]

theorem successor_formatI (predecessor successor : BitVec 4) :
    (formatI (0#4 ++ predecessor ++ successor) rs1 funct3 rd opcode).extractLsb' 20 4 =
      successor := by
  simp (disch := decide) only [formatI, BitVec.extractLsb'_append_eq_of_le,
    BitVec.extractLsb'_append_eq_of_add_le, BitVec.extractLsb'_eq_self, Nat.reduceSub]

theorem fields_formatS (imm : BitVec 12) :
    let word := formatS imm rs2 rs1 funct3 opcode
    fieldOpcode word = opcode ∧ fieldFunct3 word = funct3 ∧ fieldRs1 word = rs1 ∧
      fieldRs2 word = rs2 ∧ immediateS word = imm := by
  refine ⟨?_, ?_, ?_, ?_, ?_⟩ <;>
    simp (disch := decide) only [fieldOpcode, fieldFunct3, fieldRs1, fieldRs2, immediateS, formatS,
      BitVec.extractLsb'_append_eq_of_le, BitVec.extractLsb'_append_eq_of_add_le,
      BitVec.extractLsb'_append_extractLsb'_eq_extractLsb', BitVec.extractLsb'_eq_self,
      Nat.reduceSub]

theorem fields_formatB (imm : BitVec 12) :
    let word := formatB imm rs2 rs1 funct3 opcode
    fieldOpcode word = opcode ∧ fieldFunct3 word = funct3 ∧ fieldRs1 word = rs1 ∧
      fieldRs2 word = rs2 ∧ immediateB word = imm := by
  refine ⟨?_, ?_, ?_, ?_, ?_⟩ <;>
    simp (disch := decide) only [fieldOpcode, fieldFunct3, fieldRs1, fieldRs2, immediateB, formatB,
      BitVec.extractLsb'_append_eq_of_le, BitVec.extractLsb'_append_eq_of_add_le,
      BitVec.extractLsb'_append_extractLsb'_eq_extractLsb', BitVec.extractLsb'_eq_self,
      Nat.reduceSub]

theorem fields_formatU (imm : BitVec 20) :
    let word := formatU imm rd opcode
    fieldOpcode word = opcode ∧ fieldRd word = rd ∧ immediateU word = imm := by
  refine ⟨?_, ?_, ?_⟩ <;>
    simp (disch := decide) only [fieldOpcode, fieldRd, immediateU, formatU,
      BitVec.extractLsb'_append_eq_of_le, BitVec.extractLsb'_append_eq_of_add_le,
      BitVec.extractLsb'_eq_self, Nat.reduceSub]

theorem fields_formatJ (imm : BitVec 20) :
    let word := formatJ imm rd opcode
    fieldOpcode word = opcode ∧ fieldRd word = rd ∧ immediateJ word = imm := by
  refine ⟨?_, ?_, ?_⟩ <;>
    simp (disch := decide) only [fieldOpcode, fieldRd, immediateJ, formatJ,
      BitVec.extractLsb'_append_eq_of_le, BitVec.extractLsb'_append_eq_of_add_le,
      BitVec.extractLsb'_append_extractLsb'_eq_extractLsb', BitVec.extractLsb'_eq_self,
      Nat.reduceSub]

end Formats

/-! ## Encoding and decoding -/

/-- An instruction is decoded from what it is encoded as. -/
theorem decode_encode (instruction : Instruction) :
    decode instruction.encode = .ok instruction := by
  cases instruction with
  | opImm op rd rs1 imm =>
      obtain ⟨opcode, rdIs, funct3, rs1Is, immIs⟩ :=
        fields_formatI 0b0010011 rs1 rd op.funct3 imm
      dsimp only [encode]
      unfold decode
      rw [opcode]
      unfold decodeOpImm
      rw [funct3, rdIs, rs1Is, immIs]
      cases op <;> rfl
  | shiftImm op rd rs1 shamt =>
      obtain ⟨opcode, rdIs, funct3, rs1Is, rs2Is, funct7, -⟩ :=
        fields_formatR op.funct.1 0b0010011 shamt rs1 rd op.funct.2
      dsimp only [encode]
      unfold decode
      rw [opcode]
      unfold decodeOpImm
      rw [funct3, rdIs, rs1Is, rs2Is, funct7]
      cases op <;> rfl
  | auipc rd imm =>
      obtain ⟨opcode, rdIs, immIs⟩ := fields_formatU 0b0010111 rd imm
      dsimp only [encode]
      unfold decode
      rw [opcode]
      rw [rdIs, immIs]
      rfl
  | lui rd imm =>
      obtain ⟨opcode, rdIs, immIs⟩ := fields_formatU 0b0110111 rd imm
      dsimp only [encode]
      unfold decode
      rw [opcode]
      rw [rdIs, immIs]
      rfl
  | opReg op rd rs1 rs2 =>
      obtain ⟨opcode, rdIs, funct3, rs1Is, rs2Is, funct7, -⟩ :=
        fields_formatR op.funct.1 0b0110011 rs2 rs1 rd op.funct.2
      dsimp only [encode]
      unfold decode
      rw [opcode]
      rw [funct3, rdIs, rs1Is, rs2Is, funct7]
      cases op <;> rfl
  | jal rd offset =>
      obtain ⟨opcode, rdIs, offsetIs⟩ := fields_formatJ 0b1101111 rd offset
      dsimp only [encode]
      unfold decode
      rw [opcode]
      rw [rdIs, offsetIs]
      rfl
  | jalr rd rs1 offset =>
      obtain ⟨opcode, rdIs, funct3, rs1Is, offsetIs⟩ := fields_formatI 0b1100111 rs1 rd 0 offset
      dsimp only [encode]
      unfold decode
      rw [opcode]
      rw [funct3, rdIs, rs1Is, offsetIs]
      rfl
  | branch condition rs1 rs2 offset =>
      obtain ⟨opcode, funct3, rs1Is, rs2Is, offsetIs⟩ :=
        fields_formatB 0b1100011 rs2 rs1 condition.funct3 offset
      dsimp only [encode]
      unfold decode
      rw [opcode]
      rw [funct3, rs1Is, rs2Is, offsetIs]
      cases condition <;> rfl
  | load op rd rs1 offset =>
      obtain ⟨opcode, rdIs, funct3, rs1Is, offsetIs⟩ :=
        fields_formatI 0b0000011 rs1 rd op.funct3 offset
      dsimp only [encode]
      unfold decode
      rw [opcode]
      rw [funct3, rdIs, rs1Is, offsetIs]
      cases op <;> rfl
  | store width rs2 rs1 offset =>
      obtain ⟨opcode, funct3, rs1Is, rs2Is, offsetIs⟩ :=
        fields_formatS 0b0100011 rs2 rs1 width.funct3 offset
      dsimp only [encode]
      unfold decode
      rw [opcode]
      rw [funct3, rs1Is, rs2Is, offsetIs]
      cases width <;> rfl
  | fence predecessor successor =>
      obtain ⟨opcode, -, funct3, -⟩ :=
        fields_formatI 0b0001111 0 0 0b000 (0#4 ++ predecessor.toBits ++ successor.toBits)
      dsimp only [encode]
      unfold decode
      rw [opcode]
      unfold decodeFence
      rw [if_pos funct3, predecessor_formatI, successor_formatI, FenceSet.ofBits_toBits,
        FenceSet.ofBits_toBits]
      rfl
  | csr op rd number rs1 =>
      obtain ⟨opcode, rdIs, funct3, rs1Is, numberIs⟩ :=
        fields_formatI 0b1110011 rs1 rd (0#1 ++ op.funct) number
      dsimp only [encode]
      unfold decode
      rw [opcode]
      unfold decodeSystem
      rw [funct3, rdIs, rs1Is, numberIs]
      cases op <;> rfl
  | csrImm op rd number imm =>
      obtain ⟨opcode, rdIs, funct3, immIs, numberIs⟩ :=
        fields_formatI 0b1110011 imm rd (1#1 ++ op.funct) number
      dsimp only [encode]
      unfold decode
      rw [opcode]
      unfold decodeSystem
      rw [funct3, rdIs, immIs, numberIs]
      cases op <;> rfl
  | loadReserved rd rs1 =>
      obtain ⟨opcode, rdIs, funct3, rs1Is, rs2Is, -, funct5⟩ :=
        fields_formatR 0b0001000 0b0101111 0 rs1 rd 0b010
      dsimp only [encode]
      unfold decode
      rw [opcode]
      unfold decodeAtomic
      rw [funct3, rdIs, rs1Is, rs2Is, funct5]
      rfl
  | storeConditional rd rs1 rs2 =>
      obtain ⟨opcode, rdIs, funct3, rs1Is, rs2Is, -, funct5⟩ :=
        fields_formatR 0b0001100 0b0101111 rs2 rs1 rd 0b010
      dsimp only [encode]
      unfold decode
      rw [opcode]
      unfold decodeAtomic
      rw [funct3, rdIs, rs1Is, rs2Is, funct5]
      rfl
  | amo op rd rs1 rs2 =>
      obtain ⟨opcode, rdIs, funct3, rs1Is, rs2Is, -, funct5⟩ :=
        fields_formatR (op.funct5 ++ 0#2) 0b0101111 rs2 rs1 rd 0b010
      dsimp only [encode]
      unfold decode
      rw [opcode]
      unfold decodeAtomic
      rw [funct3, rdIs, rs1Is, rs2Is, funct5]
      cases op <;> rfl
  | sfenceVma rs1 rs2 =>
      obtain ⟨opcode, rdIs, funct3, rs1Is, rs2Is, funct7, -⟩ :=
        fields_formatR 0b0001001 0b1110011 rs2 rs1 0 0
      dsimp only [encode]
      unfold decode
      rw [opcode]
      unfold decodeSystem decodePrivileged
      rw [funct3, rdIs, rs1Is, rs2Is, funct7]
      rfl
  | _ => rfl

end Rv32.Instruction
