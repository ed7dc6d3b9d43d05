import Mathlib.Algebra.Group.Int.Defs
import Rv32.Proofs.Encoding

/-!
# Which words are which instruction

A word is decoded to an instruction exactly if it is the encoding of that instruction, up to the
bits that the instruction leaves open (`Instruction.decode_eq_ok_iff`): the ordering bits of atomic
operations, and the mode and the two registers of a fence. All other words are rejected.

From a word to its instruction there is one lemma for each part of the decoder: the format that
belongs to the opcode gives the word back from its fields. Operands have the width of the fields
that hold them; `OperandKind` says which numbers that makes them.
-/

namespace Rv32

/-! ## The numbers that operands stand for -/

/-- What a field of an encoding is for. -/
inductive OperandKind where
  | register
  | immediate
  | shiftAmount
  | upperImmediate
  | branchOffset
  | jumpOffset
  | csrNumber
  | csrImmediate
deriving DecidableEq, Repr

namespace OperandKind

/-- The bits that such operands have. -/
def width : OperandKind → Nat
  | register | shiftAmount | csrImmediate => 5
  | immediate | branchOffset | csrNumber => 12
  | upperImmediate | jumpOffset => 20

/-- The number that an operand stands for. Offsets count bytes. -/
def number : (kind : OperandKind) → BitVec kind.width → Int
  | register, bits | shiftAmount, bits | csrImmediate, bits | csrNumber, bits => bits.toNat
  | immediate, bits => bits.toInt
  | upperImmediate, bits => (Instruction.upper bits).toInt
  | branchOffset, bits | jumpOffset, bits => (Instruction.distance bits).toInt

/-- The numbers that well-formed instructions have as such operands. -/
def Admits (kind : OperandKind) (number : Int) : Prop :=
  match kind with
  | register | shiftAmount | csrImmediate => 0 ≤ number ∧ number < 32
  | immediate => -2048 ≤ number ∧ number ≤ 2047
  | upperImmediate => -0x80000000 ≤ number ∧ number < 0x80000000 ∧ 4096 ∣ number
  | branchOffset => -4096 ≤ number ∧ number ≤ 4094 ∧ 2 ∣ number
  | jumpOffset => -0x100000 ≤ number ∧ number ≤ 0xFFFFE ∧ 2 ∣ number
  | csrNumber => 0 ≤ number ∧ number < 4096

theorem exists_toNat_eq_iff (bits : Nat) {number : Int} :
    (∃ operand : BitVec bits, (operand.toNat : Int) = number) ↔
      0 ≤ number ∧ number < 2 ^ bits := by
  constructor
  · rintro ⟨operand, rfl⟩
    exact ⟨Int.natCast_nonneg _, mod_cast operand.isLt⟩
  · rintro ⟨nonnegative, small⟩
    obtain ⟨natural, rfl⟩ := Int.eq_ofNat_of_zero_le nonnegative
    have fits : natural < 2 ^ bits := by exact_mod_cast small
    exact ⟨BitVec.ofNat bits natural, by rw [BitVec.toNat_ofNat, Nat.mod_eq_of_lt fits]⟩

/-- The numbers of signed operands that count in steps. -/
theorem exists_mul_toInt_eq_iff {bits : Nat} (some : 0 < bits) {step : Int} (positive : 0 < step)
    {number : Int} :
    (∃ operand : BitVec bits, step * operand.toInt = number) ↔
      step * -2 ^ (bits - 1) ≤ number ∧ number < step * 2 ^ (bits - 1) ∧ step ∣ number := by
  constructor
  · rintro ⟨operand, rfl⟩
    exact ⟨Int.mul_le_mul_of_nonneg_left operand.le_toInt (Int.le_of_lt positive),
      Int.mul_lt_mul_of_pos_left operand.toInt_lt positive, Int.dvd_mul_right ..⟩
  · rintro ⟨low, high, count, rfl⟩
    have low := Int.le_of_mul_le_mul_left low positive
    have high := Int.lt_of_mul_lt_mul_left high (Int.le_of_lt positive)
    exact ⟨BitVec.ofInt bits count, by rw [BitVec.toInt_ofInt_eq_self some low high]⟩

theorem toInt_upper (imm : BitVec 20) : (Instruction.upper imm).toInt = 4096 * imm.toInt := by
  unfold Instruction.upper
  rw [BitVec.toInt_append]
  simp

theorem toInt_distance {bits : Nat} (some : 0 < bits) (small : bits < 32)
    (halfwords : BitVec bits) :
    (Instruction.distance halfwords).toInt = 2 * halfwords.toInt := by
  have nonzero : bits ≠ 0 := by omega
  unfold Instruction.distance
  rw [BitVec.toInt_signExtend_of_le (by omega), BitVec.toInt_append]
  simp [nonzero]

/-- A field holds exactly the numbers that well-formed instructions have there. -/
theorem admits_iff (kind : OperandKind) (number : Int) :
    kind.Admits number ↔ ∃ bits, kind.number bits = number := by
  have positive : (0 : Int) < 2 := by decide
  cases kind with
  | register | shiftAmount | csrImmediate => exact (exists_toNat_eq_iff 5).symm
  | csrNumber => exact (exists_toNat_eq_iff 12).symm
  | immediate =>
      change _ ↔ ∃ imm : BitVec 12, imm.toInt = number
      have steps := @exists_mul_toInt_eq_iff 12 (by decide) 1 (by decide) number
      simp only [Int.one_mul] at steps
      rw [steps]
      unfold Admits
      omega
  | upperImmediate =>
      change _ ↔ ∃ imm : BitVec 20, (Instruction.upper imm).toInt = number
      simp only [toInt_upper]
      rw [exists_mul_toInt_eq_iff (by decide) (by decide)]
      exact Iff.rfl
  | branchOffset =>
      change _ ↔ ∃ offset : BitVec 12, (Instruction.distance offset).toInt = number
      simp only [toInt_distance (show 0 < 12 by decide) (show 12 < 32 by decide)]
      rw [exists_mul_toInt_eq_iff (by decide) positive]
      unfold Admits
      omega
  | jumpOffset =>
      change _ ↔ ∃ offset : BitVec 20, (Instruction.distance offset).toInt = number
      simp only [toInt_distance (show 0 < 20 by decide) (show 20 < 32 by decide)]
      rw [exists_mul_toInt_eq_iff (by decide) positive]
      unfold Admits
      omega

end OperandKind

/-- An operand of an instruction, as the bits that hold it. -/
structure Operand where
  kind : OperandKind
  bits : BitVec kind.width

namespace Instruction

/-- The operands of an instruction. -/
def operands : Instruction → List Operand
  | opImm _ rd rs1 imm => [⟨.register, rd⟩, ⟨.register, rs1⟩, ⟨.immediate, imm⟩]
  | shiftImm _ rd rs1 shamt => [⟨.register, rd⟩, ⟨.register, rs1⟩, ⟨.shiftAmount, shamt⟩]
  | auipc rd imm | lui rd imm => [⟨.register, rd⟩, ⟨.upperImmediate, imm⟩]
  | opReg _ rd rs1 rs2 | amo _ rd rs1 rs2 | storeConditional rd rs1 rs2 =>
    [⟨.register, rd⟩, ⟨.register, rs1⟩, ⟨.register, rs2⟩]
  | jal rd offset => [⟨.register, rd⟩, ⟨.jumpOffset, offset⟩]
  | jalr rd rs1 offset | load _ rd rs1 offset =>
    [⟨.register, rd⟩, ⟨.register, rs1⟩, ⟨.immediate, offset⟩]
  | branch _ rs1 rs2 offset => [⟨.register, rs1⟩, ⟨.register, rs2⟩, ⟨.branchOffset, offset⟩]
  | store _ rs2 rs1 offset => [⟨.register, rs2⟩, ⟨.register, rs1⟩, ⟨.immediate, offset⟩]
  | csr _ rd number rs1 => [⟨.register, rd⟩, ⟨.csrNumber, number⟩, ⟨.register, rs1⟩]
  | csrImm _ rd number imm => [⟨.register, rd⟩, ⟨.csrNumber, number⟩, ⟨.csrImmediate, imm⟩]
  | loadReserved rd rs1 => [⟨.register, rd⟩, ⟨.register, rs1⟩]
  | sfenceVma rs1 rs2 => [⟨.register, rs1⟩, ⟨.register, rs2⟩]
  | fence _ _ | fenceI | ecall | ebreak | sret | mret | wfi => []

/-- All operands are in the ranges of their kinds. -/
def WellFormed (instruction : Instruction) : Prop :=
  ∀ operand ∈ instruction.operands, operand.kind.Admits (operand.kind.number operand.bits)

/-! ## A word from its fields -/

section Fields

variable {word : Word} {funct7 opcode : BitVec 7} {funct3 : BitVec 3}
  (opcodeIs : fieldOpcode word = opcode) (funct3Is : fieldFunct3 word = funct3)

include opcodeIs

theorem eq_formatU : word = formatU (immediateU word) (fieldRd word) opcode := by
  rw [← opcodeIs]
  simp (disch := decide) only [formatU, immediateU, fieldRd, fieldOpcode,
    BitVec.extractLsb'_append_extractLsb'_eq_extractLsb', BitVec.extractLsb'_eq_self]

theorem eq_formatJ : word = formatJ (immediateJ word) (fieldRd word) opcode := by
  rw [← opcodeIs]
  simp (disch := decide) only [formatJ, immediateJ, fieldRd, fieldOpcode,
    BitVec.extractLsb'_append_eq_of_le, BitVec.extractLsb'_append_eq_of_add_le,
    BitVec.extractLsb'_append_extractLsb'_eq_extractLsb', BitVec.extractLsb'_eq_self,
    Nat.reduceSub]

include funct3Is

theorem eq_formatR (funct7Is : fieldFunct7 word = funct7) :
    word = formatR funct7 (fieldRs2 word) (fieldRs1 word) funct3 (fieldRd word) opcode := by
  rw [← opcodeIs, ← funct3Is, ← funct7Is]
  simp (disch := decide) only [formatR, fieldFunct7, fieldRs2, fieldRs1, fieldFunct3, fieldRd,
    fieldOpcode, BitVec.extractLsb'_append_extractLsb'_eq_extractLsb', BitVec.extractLsb'_eq_self]

theorem eq_formatI :
    word = formatI (immediateI word) (fieldRs1 word) funct3 (fieldRd word) opcode := by
  rw [← opcodeIs, ← funct3Is]
  simp (disch := decide) only [formatI, immediateI, fieldRs1, fieldFunct3, fieldRd, fieldOpcode,
    BitVec.extractLsb'_append_extractLsb'_eq_extractLsb', BitVec.extractLsb'_eq_self]

theorem eq_formatS :
    word = formatS (immediateS word) (fieldRs2 word) (fieldRs1 word) funct3 opcode := by
  rw [← opcodeIs, ← funct3Is]
  simp (disch := decide) only [formatS, immediateS, fieldRs2, fieldRs1, fieldFunct3, fieldOpcode,
    BitVec.extractLsb'_append_eq_of_le, BitVec.extractLsb'_append_eq_of_add_le,
    BitVec.extractLsb'_append_extractLsb'_eq_extractLsb', BitVec.extractLsb'_eq_self,
    Nat.reduceSub]

theorem eq_formatB :
    word = formatB (immediateB word) (fieldRs2 word) (fieldRs1 word) funct3 opcode := by
  rw [← opcodeIs, ← funct3Is]
  simp (disch := decide) only [formatB, immediateB, fieldRs2, fieldRs1, fieldFunct3, fieldOpcode,
    BitVec.extractLsb'_append_eq_of_le, BitVec.extractLsb'_append_eq_of_add_le,
    BitVec.extractLsb'_append_extractLsb'_eq_extractLsb', BitVec.extractLsb'_eq_self,
    Nat.reduceSub]

end Fields

/-! ## The bits that an instruction leaves open -/

/-- The bits that order an atomic operation with what comes before and after it. -/
def orderingBits : Word := formatR 0b0000011 0 0 0 0 0

/-- The fields of a fence that say nothing yet: its mode and its two registers. -/
def fenceBits : Word := formatI (0xF#4 ++ 0#8) 0b11111 0 0b11111 0

/-- The bits that decoding ignores in an encoding of the instruction. -/
def openBits : Instruction → Word
  | loadReserved _ _ | storeConditional _ _ _ | amo _ _ _ _ => orderingBits
  | fence _ _ => fenceBits
  | _ => 0

/-- The word is the encoding of the instruction in all bits that are not open. -/
def SpelledBy (instruction : Instruction) (word : Word) : Prop :=
  word &&& ~~~instruction.openBits = instruction.encode

section Open

variable {cut : Word} (word : Word) {start len : Nat}

theorem extractLsb'_and_not_of_kept (kept : (~~~cut).extractLsb' start len = BitVec.allOnes len) :
    (word &&& ~~~cut).extractLsb' start len = word.extractLsb' start len := by
  rw [BitVec.extractLsb'_and, kept, BitVec.and_allOnes]

theorem extractLsb'_and_not_of_cut (isCut : (~~~cut).extractLsb' start len = BitVec.ofNat len 0) :
    (word &&& ~~~cut).extractLsb' start len = BitVec.ofNat len 0 := by
  rw [BitVec.extractLsb'_and, isCut, BitVec.and_zero]

/-- Without its ordering bits a word has the same fields, of which the highest is shorter. -/
theorem fields_without_orderingBits :
    let rest := word &&& ~~~orderingBits
    fieldOpcode rest = fieldOpcode word ∧ fieldRd rest = fieldRd word ∧
      fieldFunct3 rest = fieldFunct3 word ∧ fieldRs1 rest = fieldRs1 word ∧
      fieldRs2 rest = fieldRs2 word ∧ fieldFunct7 rest = fieldFunct5 word ++ 0#2 := by
  intro rest
  have funct7 : fieldFunct7 rest = rest.extractLsb' 27 5 ++ rest.extractLsb' 25 2 := by
    unfold fieldFunct7
    simp (disch := decide) only [BitVec.extractLsb'_append_extractLsb'_eq_extractLsb']
  rw [funct7, extractLsb'_and_not_of_kept word (by decide : _ = BitVec.allOnes 5),
    extractLsb'_and_not_of_cut word (by decide : _ = 0#2)]
  exact ⟨extractLsb'_and_not_of_kept word (by decide), extractLsb'_and_not_of_kept word (by decide),
    extractLsb'_and_not_of_kept word (by decide), extractLsb'_and_not_of_kept word (by decide),
    extractLsb'_and_not_of_kept word (by decide), rfl⟩

/-- Of the fields of a fence, the two sets of accesses are left. -/
theorem fields_without_fenceBits :
    let rest := word &&& ~~~fenceBits
    fieldOpcode rest = fieldOpcode word ∧ fieldRd rest = 0 ∧ fieldFunct3 rest = fieldFunct3 word ∧
      fieldRs1 rest = 0 ∧
      immediateI rest = 0#4 ++ word.extractLsb' 24 4 ++ word.extractLsb' 20 4 := by
  intro rest
  have imm : immediateI rest =
      rest.extractLsb' 28 4 ++ rest.extractLsb' 24 4 ++ rest.extractLsb' 20 4 := by
    unfold immediateI
    simp (disch := decide) only [BitVec.extractLsb'_append_extractLsb'_eq_extractLsb']
  rw [imm, extractLsb'_and_not_of_cut word (by decide : _ = 0#4),
    extractLsb'_and_not_of_kept word (by decide : _ = BitVec.allOnes 4),
    extractLsb'_and_not_of_kept word (by decide : _ = BitVec.allOnes 4)]
  exact ⟨extractLsb'_and_not_of_kept word (by decide), extractLsb'_and_not_of_cut word (by decide),
    extractLsb'_and_not_of_kept word (by decide), extractLsb'_and_not_of_cut word (by decide), rfl⟩

end Open

/-! ## From a word to its instruction -/

theorem funct3_of_loadOp? {funct3 : BitVec 3} {op : LoadOp} (found : loadOp? funct3 = some op) :
    funct3 = op.funct3 := by
  unfold loadOp? at found
  split at found <;> cases found <;> rfl

theorem funct3_of_storeWidth? {funct3 : BitVec 3} {width : Width}
    (found : storeWidth? funct3 = some width) : funct3 = width.funct3 := by
  unfold storeWidth? at found
  split at found <;> cases found <;> rfl

theorem funct3_of_condition? {funct3 : BitVec 3} {condition : Condition}
    (found : condition? funct3 = some condition) : funct3 = condition.funct3 := by
  unfold condition? at found
  split at found <;> cases found <;> rfl

theorem funct5_of_amoOp? {funct5 : BitVec 5} {op : AmoOp} (found : amoOp? funct5 = some op) :
    funct5 = op.funct5 := by
  unfold amoOp? at found
  split at found <;> cases found <;> rfl

theorem funct_of_regOp? {funct7 : BitVec 7} {funct3 : BitVec 3} {op : RegOp}
    (found : regOp? funct7 funct3 = some op) : (funct7, funct3) = op.funct := by
  unfold regOp? at found
  split at found
  · split at found <;> cases found <;> simp only [*] <;> rfl
  split at found
  · split at found <;> cases found <;> simp only [*] <;> rfl
  split at found
  · split at found <;> cases found <;> simp only [*] <;> rfl
  · cases found

/-- An instruction without open bits is spelled by its encoding only. -/
theorem spelledBy_iff_of_closed {instruction : Instruction} (closed : instruction.openBits = 0)
    {word : Word} : instruction.SpelledBy word ↔ word = instruction.encode := by
  have all : ~~~(0 : Word) = BitVec.allOnes 32 := by decide
  unfold SpelledBy
  rw [closed, all, BitVec.and_allOnes]

section Decoded

variable {word : Word} {instruction : Instruction}

theorem spelledBy_of_decodeOpImm (opcode : fieldOpcode word = 0b0010011)
    (decoded : decodeOpImm word = .ok instruction) : instruction.SpelledBy word := by
  have spells {funct3 : BitVec 3} (funct3Is : fieldFunct3 word = funct3) :=
    eq_formatI opcode funct3Is
  have shifts {funct3 : BitVec 3} {funct7 : BitVec 7} (funct3Is : fieldFunct3 word = funct3)
      (funct7Is : fieldFunct7 word = funct7) := eq_formatR opcode funct3Is funct7Is
  unfold decodeOpImm at decoded
  dsimp only at decoded
  split at decoded
  case h_7 left =>
    split at decoded
    · rename_i logical
      cases decoded
      exact (spelledBy_iff_of_closed rfl).2 (shifts left logical)
    · cases decoded
  case h_8 right =>
    split at decoded
    · rename_i logical
      cases decoded
      exact (spelledBy_iff_of_closed rfl).2 (shifts right logical)
    split at decoded
    · rename_i arithmetic
      cases decoded
      exact (spelledBy_iff_of_closed rfl).2 (shifts right arithmetic)
    · cases decoded
  all_goals
    rename_i funct3
    cases decoded
    exact (spelledBy_iff_of_closed rfl).2 (spells funct3)

theorem spelledBy_of_decodeFence (opcode : fieldOpcode word = 0b0001111)
    (decoded : decodeFence word = .ok instruction) : instruction.SpelledBy word := by
  unfold decodeFence at decoded
  split at decoded
  · rename_i funct3
    cases decoded
    obtain ⟨sameOpcode, rd, sameFunct3, rs1, imm⟩ := fields_without_fenceBits word
    have spells := eq_formatI (sameOpcode.trans opcode) (sameFunct3.trans funct3)
    rw [rd, rs1, imm] at spells
    change word &&& ~~~fenceBits =
      formatI (0#4 ++ (FenceSet.ofBits _).toBits ++ (FenceSet.ofBits _).toBits) 0 _ 0 _
    rw [FenceSet.toBits_ofBits, FenceSet.toBits_ofBits]
    exact spells
  split at decoded
  · rename_i spells
    cases decoded
    exact (spelledBy_iff_of_closed rfl).2 spells
  · cases decoded

theorem spelledBy_of_decodeAtomic (opcode : fieldOpcode word = 0b0101111)
    (decoded : decodeAtomic word = .ok instruction) : instruction.SpelledBy word := by
  unfold decodeAtomic at decoded
  dsimp only at decoded
  split at decoded
  · cases decoded
  rename_i funct3
  obtain ⟨sameOpcode, rd, sameFunct3, rs1, rs2, funct7⟩ := fields_without_orderingBits word
  have spells := eq_formatR (sameOpcode.trans opcode)
    (sameFunct3.trans (Decidable.not_not.1 funct3)) funct7
  rw [rd, rs1, rs2] at spells
  split at decoded
  · rename_i funct5
    split at decoded
    · rename_i zero
      cases decoded
      rw [funct5, zero] at spells
      exact spells
    · cases decoded
  split at decoded
  · rename_i funct5
    cases decoded
    rw [funct5] at spells
    exact spells
  split at decoded
  · rename_i op found
    cases decoded
    rw [funct5_of_amoOp? found] at spells
    exact spells
  · cases decoded

theorem spelledBy_of_decodePrivileged (opcode : fieldOpcode word = 0b1110011)
    (funct3 : fieldFunct3 word = 0b000) (decoded : decodePrivileged word = .ok instruction) :
    instruction.SpelledBy word := by
  unfold decodePrivileged at decoded
  split at decoded
  · cases decoded
  rename_i destination
  have rd := Decidable.not_not.1 destination
  split at decoded
  · rename_i funct7
    cases decoded
    have spells := eq_formatR opcode funct3 funct7
    rw [rd] at spells
    exact (spelledBy_iff_of_closed rfl).2 spells
  split at decoded
  · cases decoded
  rename_i source
  have spells := eq_formatI opcode funct3
  rw [rd, Decidable.not_not.1 source] at spells
  split at decoded
  case h_6 => cases decoded
  all_goals
    rename_i imm
    cases decoded
    rw [imm] at spells
    exact (spelledBy_iff_of_closed rfl).2 spells

theorem spelledBy_of_decodeSystem (opcode : fieldOpcode word = 0b1110011)
    (decoded : decodeSystem word = .ok instruction) : instruction.SpelledBy word := by
  unfold decodeSystem at decoded
  dsimp only at decoded
  split at decoded
  case h_1 funct3 => exact spelledBy_of_decodePrivileged opcode funct3 decoded
  case h_5 => cases decoded
  all_goals
    rename_i funct3
    cases decoded
    exact (spelledBy_iff_of_closed rfl).2 (eq_formatI opcode funct3)

/-- A word spells the instruction that is decoded from it. -/
theorem spelledBy_of_decode (decoded : decode word = .ok instruction) :
    instruction.SpelledBy word := by
  unfold decode at decoded
  split at decoded
  case h_1 opcode =>
    split at decoded
    · rename_i op found
      cases decoded
      exact (spelledBy_iff_of_closed rfl).2 (eq_formatI opcode (funct3_of_loadOp? found))
    · cases decoded
  case h_2 opcode => exact spelledBy_of_decodeFence opcode decoded
  case h_3 opcode => exact spelledBy_of_decodeOpImm opcode decoded
  case h_4 opcode =>
    cases decoded
    exact (spelledBy_iff_of_closed rfl).2 (eq_formatU opcode)
  case h_5 opcode =>
    split at decoded
    · rename_i width found
      cases decoded
      exact (spelledBy_iff_of_closed rfl).2 (eq_formatS opcode (funct3_of_storeWidth? found))
    · cases decoded
  case h_6 opcode => exact spelledBy_of_decodeAtomic opcode decoded
  case h_7 opcode =>
    split at decoded
    · rename_i op found
      cases decoded
      obtain ⟨funct7, funct3⟩ := Prod.mk.inj (funct_of_regOp? found)
      exact (spelledBy_iff_of_closed rfl).2 (eq_formatR opcode funct3 funct7)
    · cases decoded
  case h_8 opcode =>
    cases decoded
    exact (spelledBy_iff_of_closed rfl).2 (eq_formatU opcode)
  case h_9 opcode =>
    split at decoded
    · rename_i condition found
      cases decoded
      exact (spelledBy_iff_of_closed rfl).2 (eq_formatB opcode (funct3_of_condition? found))
    · cases decoded
  case h_10 opcode =>
    split at decoded
    · rename_i funct3
      cases decoded
      exact (spelledBy_iff_of_closed rfl).2 (eq_formatI opcode funct3)
    · cases decoded
  case h_11 opcode =>
    cases decoded
    exact (spelledBy_iff_of_closed rfl).2 (eq_formatJ opcode)
  case h_12 opcode => exact spelledBy_of_decodeSystem opcode decoded
  case h_13 => cases decoded

end Decoded

/-! ## From an instruction to its words -/

theorem decode_atomic {word : Word} (opcode : fieldOpcode word = 0b0101111) :
    decode word = decodeAtomic word := by
  unfold decode
  rw [opcode]
  rfl

theorem decode_fence {word : Word} (opcode : fieldOpcode word = 0b0001111) :
    decode word = decodeFence word := by
  unfold decode
  rw [opcode]
  rfl

/-- Decoding ignores the ordering bits. -/
theorem decode_without_orderingBits {word : Word} (opcode : fieldOpcode word = 0b0101111) :
    decode (word &&& ~~~orderingBits) = decode word := by
  obtain ⟨sameOpcode, rd, funct3, rs1, rs2, -⟩ := fields_without_orderingBits word
  have funct5 : fieldFunct5 (word &&& ~~~orderingBits) = fieldFunct5 word :=
    extractLsb'_and_not_of_kept word (by decide)
  rw [decode_atomic opcode, decode_atomic (sameOpcode.trans opcode)]
  unfold decodeAtomic
  rw [rd, funct3, rs1, rs2, funct5]

/-- Decoding ignores the fields of a fence that say nothing. -/
theorem decode_without_fenceBits {word : Word} (opcode : fieldOpcode word = 0b0001111)
    (funct3 : fieldFunct3 word = 0b000) : decode (word &&& ~~~fenceBits) = decode word := by
  obtain ⟨sameOpcode, -, sameFunct3, -, -⟩ := fields_without_fenceBits word
  have predecessor : (word &&& ~~~fenceBits).extractLsb' 24 4 = word.extractLsb' 24 4 :=
    extractLsb'_and_not_of_kept word (by decide)
  have successor : (word &&& ~~~fenceBits).extractLsb' 20 4 = word.extractLsb' 20 4 :=
    extractLsb'_and_not_of_kept word (by decide)
  rw [decode_fence opcode, decode_fence (sameOpcode.trans opcode)]
  unfold decodeFence
  rw [if_pos (sameFunct3.trans funct3), if_pos funct3, predecessor, successor]

/-- Every word that spells an instruction is decoded to it. -/
theorem decode_of_spelledBy {word : Word} {instruction : Instruction}
    (spelled : instruction.SpelledBy word) : decode word = .ok instruction := by
  have decoded := decode_encode instruction
  cases instruction with
  | loadReserved | storeConditional | amo =>
      have opcode : fieldOpcode word = 0b0101111 :=
        (fields_without_orderingBits word).1.symm.trans
          ((congrArg fieldOpcode spelled).trans (fields_formatR ..).1)
      rw [← spelled] at decoded
      exact (decode_without_orderingBits opcode).symm.trans decoded
  | fence predecessor successor =>
      obtain ⟨sameOpcode, -, sameFunct3, -⟩ := fields_without_fenceBits word
      obtain ⟨opcode, -, funct3, -⟩ :=
        fields_formatI 0b0001111 0 0 0b000 (0#4 ++ predecessor.toBits ++ successor.toBits)
      rw [← spelled] at decoded
      exact (decode_without_fenceBits
        (sameOpcode.symm.trans ((congrArg fieldOpcode spelled).trans opcode))
        (sameFunct3.symm.trans ((congrArg fieldFunct3 spelled).trans funct3))).symm.trans decoded
  | _ =>
      rw [(spelledBy_iff_of_closed rfl).1 spelled]
      exact decoded

/-- A word is decoded to the instruction that it spells. -/
theorem decode_eq_ok_iff {word : Word} {instruction : Instruction} :
    decode word = .ok instruction ↔ instruction.SpelledBy word :=
  ⟨spelledBy_of_decode, decode_of_spelledBy⟩

theorem wellFormed (instruction : Instruction) : instruction.WellFormed :=
  fun operand _ => (operand.kind.admits_iff _).2 ⟨operand.bits, rfl⟩

/-- Decoding of words is exact. (1) The numbers that the operands of well-formed instructions have
are those that the fields hold, so all instructions are well-formed. (2) Each is decoded from its
encoding. (3) A word is decoded to an instruction exactly if it is its encoding in all bits that are
not open, and so is another word exactly if the two differ in open bits only. (4) The words that
spell no instruction are those that are rejected. -/
theorem decode_exact :
    (∀ (kind : OperandKind) number, kind.Admits number ↔ ∃ bits, kind.number bits = number) ∧
      (∀ instruction : Instruction,
        instruction.WellFormed ∧ decode instruction.encode = .ok instruction) ∧
      (∀ word instruction, decode word = .ok instruction ↔
        word &&& ~~~instruction.openBits = instruction.encode) ∧
      (∀ word instruction, decode word = .ok instruction → ∀ other,
        decode other = .ok instruction ↔
          other &&& ~~~instruction.openBits = word &&& ~~~instruction.openBits) ∧
      ∀ word, (∃ refusal, decode word = .error refusal) ↔
        ∀ instruction : Instruction,
          word &&& ~~~instruction.openBits ≠ instruction.encode := by
  refine ⟨OperandKind.admits_iff, fun instruction => ⟨instruction.wellFormed,
    decode_encode instruction⟩, fun _ _ => decode_eq_ok_iff,
    fun word instruction decoded other => ?_, fun word => ⟨?_, fun spellsNone => ?_⟩⟩
  · rw [decode_eq_ok_iff, show word &&& ~~~instruction.openBits = instruction.encode from
      spelledBy_of_decode decoded]
    rfl
  · rintro ⟨refusal, refused⟩ instruction spelled
    cases refused.symm.trans (decode_of_spelledBy spelled)
  · rcases decoded : decode word with refusal | instruction
    · exact ⟨refusal, rfl⟩
    · exact absurd (spelledBy_of_decode decoded) (spellsNone instruction)

/-- An addition that acquires is the same instruction as one that releases. -/
theorem acquiringAdd_decodes :
    decode 0x04A5A5AF = .ok (.amo .add 11 11 10) ∧
      decode 0x02A5A5AF = .ok (.amo .add 11 11 10) := by
  obtain ⟨-, -, -, alike, -⟩ := decode_exact
  have acquires : decode 0x04A5A5AF = .ok (.amo .add 11 11 10) := rfl
  have releases := (alike 0x04A5A5AF (.amo .add 11 11 10) acquires 0x02A5A5AF).2 (by decide)
  exact ⟨acquires, releases⟩

end Instruction

end Rv32
