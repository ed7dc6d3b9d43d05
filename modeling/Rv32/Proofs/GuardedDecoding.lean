import Rv32.Instruction.Compressed
import Rv32.Proofs.GuardedOperations

/-!
# Decoding that asks first

The decoders read registers from fields of five or three bits, and put the immediates of compressed
instructions together from pieces that they cut out and move by shifts. Here they ask before each of
these operations. No bit pattern leads to a breach, and what is decoded is what `Instruction.decode`
and `Instruction.expand` say: `Checked.decode_eq` and `Checked.expand_eq`.
-/

namespace Rv32.Checked

/-- A computation that may also refuse the bits it is given. -/
abbrev Decoding := ExceptT DecodeError Checked

/-! ## Words -/

/-- The register that five bits of a word name. -/
def register (word : Word) (low : Nat) : Checked Reg := field 5 (word >>> low &&& 0x1F).toNat

/-- The amount of a shift, which stands in five bits like a register. -/
def shiftField (word : Word) : Checked (BitVec 5) := field 5 (word >>> 20 &&& 0x1F).toNat

theorem register_eq (word : Word) (low : Nat) :
    register word low = .ok (word.extractLsb' low 5) := by
  rw [register, field_mask _ rfl]
  rfl

theorem register_rd (word : Word) : register word 7 = .ok (Instruction.fieldRd word) :=
  register_eq word 7

theorem register_rs1 (word : Word) : register word 15 = .ok (Instruction.fieldRs1 word) :=
  register_eq word 15

theorem register_rs2 (word : Word) : register word 20 = .ok (Instruction.fieldRs2 word) :=
  register_eq word 20

theorem shiftField_eq (word : Word) : shiftField word = .ok (Instruction.fieldRs2 word) :=
  register_eq word 20

def decodeOpImm (word : Word) : Decoding Instruction :=
  let imm (op : ImmOp) : Decoding Instruction := do
    return .opImm op (← register word 7) (← register word 15) (Instruction.immediateI word)
  let shift (op : ShiftOp) : Decoding Instruction := do
    return .shiftImm op (← register word 7) (← register word 15) (← shiftField word)
  match Instruction.fieldFunct3 word with
  | 0b000 => imm .addi
  | 0b010 => imm .slti
  | 0b011 => imm .sltiu
  | 0b100 => imm .xori
  | 0b110 => imm .ori
  | 0b111 => imm .andi
  | 0b001 => if Instruction.fieldFunct7 word = 0b0000000 then shift .slli else throw .illegal
  | 0b101 =>
    if Instruction.fieldFunct7 word = 0b0000000 then shift .srli
    else if Instruction.fieldFunct7 word = 0b0100000 then shift .srai
    else throw .illegal

def decodeAtomic (word : Word) : Decoding Instruction := do
  if Instruction.fieldFunct3 word ≠ 0b010 then throw .illegal
  let rd ← register word 7
  let rs1 ← register word 15
  let rs2 ← register word 20
  if Instruction.fieldFunct5 word = 0b00010 then
    if rs2 = Reg.zero then return .loadReserved rd rs1 else throw .illegal
  else if Instruction.fieldFunct5 word = 0b00011 then return .storeConditional rd rs1 rs2
  else
    match Instruction.amoOp? (Instruction.fieldFunct5 word) with
    | some op => return .amo op rd rs1 rs2
    | none => throw .illegal

def decodePrivileged (word : Word) : Decoding Instruction := do
  if (← register word 7) ≠ Reg.zero then throw .illegal
  if Instruction.fieldFunct7 word = 0b0001001 then
    return .sfenceVma (← register word 15) (← register word 20)
  if (← register word 15) ≠ Reg.zero then throw .illegal
  match Instruction.immediateI word with
  | 0x000 => return .ecall
  | 0x001 => return .ebreak
  | 0x102 => return .sret
  | 0x302 => return .mret
  | 0x105 => return .wfi
  | _ => throw .illegal

def decodeSystem (word : Word) : Decoding Instruction := do
  let rd ← register word 7
  let csr (op : CsrOp) : Decoding Instruction := do
    return .csr op rd (Instruction.immediateI word) (← register word 15)
  let csrImm (op : CsrOp) : Decoding Instruction :=
    return .csrImm op rd (Instruction.immediateI word) (Instruction.fieldRs1 word)
  match Instruction.fieldFunct3 word with
  | 0b000 => decodePrivileged word
  | 0b001 => csr .readWrite
  | 0b010 => csr .readSet
  | 0b011 => csr .readClear
  | 0b100 => throw .illegal
  | 0b101 => csrImm .readWrite
  | 0b110 => csrImm .readSet
  | 0b111 => csrImm .readClear

/-- The instruction that a word stands for. -/
def decode (word : Word) : Decoding Instruction := do
  match Instruction.fieldOpcode word with
  | 0b0000011 =>
    match Instruction.loadOp? (Instruction.fieldFunct3 word) with
    | some op =>
      return .load op (← register word 7) (← register word 15) (Instruction.immediateI word)
    | none => throw .illegal
  | 0b0001111 => settled (Instruction.decodeFence word)
  | 0b0010011 => decodeOpImm word
  | 0b0010111 => return .auipc (← register word 7) (Instruction.immediateU word)
  | 0b0100011 =>
    match Instruction.storeWidth? (Instruction.fieldFunct3 word) with
    | some width =>
      return .store width (← register word 20) (← register word 15) (Instruction.immediateS word)
    | none => throw .illegal
  | 0b0101111 => decodeAtomic word
  | 0b0110011 =>
    match Instruction.regOp? (Instruction.fieldFunct7 word) (Instruction.fieldFunct3 word) with
    | some op => return .opReg op (← register word 7) (← register word 15) (← register word 20)
    | none => throw .illegal
  | 0b0110111 => return .lui (← register word 7) (Instruction.immediateU word)
  | 0b1100011 =>
    match Instruction.condition? (Instruction.fieldFunct3 word) with
    | some condition =>
      return .branch condition (← register word 15) (← register word 20)
        (Instruction.immediateB word)
    | none => throw .illegal
  | 0b1100111 =>
    if Instruction.fieldFunct3 word = 0b000 then
      return .jalr (← register word 7) (← register word 15) (Instruction.immediateI word)
    else throw .illegal
  | 0b1101111 => return .jal (← register word 7) (Instruction.immediateJ word)
  | 0b1110011 => decodeSystem word
  | _ => throw .unsupportedOpcode

theorem decodeOpImm_eq (word : Word) :
    decodeOpImm word = settled (Instruction.decodeOpImm word) := by
  unfold decodeOpImm Instruction.decodeOpImm
  simp only [register_rd, register_rs1, shiftField_eq, lift_ok_bind]
  generalize Instruction.fieldFunct3 word = funct3
  split
  case h_7 => split <;> rfl
  case h_8 =>
    split
    · rfl
    · split <;> rfl
  all_goals rfl

theorem decodeAtomic_eq (word : Word) :
    decodeAtomic word = settled (Instruction.decodeAtomic word) := by
  unfold decodeAtomic Instruction.decodeAtomic
  simp only [register_rd, register_rs1, register_rs2, lift_ok_bind]
  split
  · rfl
  · split
    · split <;> rfl
    · split
      · rfl
      · cases Instruction.amoOp? (Instruction.fieldFunct5 word) <;> rfl

theorem decodePrivileged_eq (word : Word) :
    decodePrivileged word = settled (Instruction.decodePrivileged word) := by
  unfold decodePrivileged
  simp only [register_rd, register_rs1, register_rs2, lift_ok_bind]
  fun_cases Instruction.decodePrivileged word with
  | case1 hasTarget =>
      rw [if_pos hasTarget]
      rfl
  | case2 noTarget fences =>
      rw [if_neg noTarget, if_pos fences]
      rfl
  | case3 noTarget noFence hasOperand =>
      rw [if_neg noTarget, if_neg noFence, if_pos hasOperand]
      rfl
  | case4 noTarget noFence noOperand number | case5 noTarget noFence noOperand number
  | case6 noTarget noFence noOperand number | case7 noTarget noFence noOperand number
  | case8 noTarget noFence noOperand number =>
      rw [if_neg noTarget, if_neg noFence, if_neg noOperand, number]
      rfl
  | case9 noTarget noFence noOperand =>
      rw [if_neg noTarget, if_neg noFence, if_neg noOperand]
      -- No number is left that the decoder that asks could still accept.
      split
      case h_6 => rfl
      all_goals contradiction

theorem decodeSystem_eq (word : Word) :
    decodeSystem word = settled (Instruction.decodeSystem word) := by
  unfold decodeSystem Instruction.decodeSystem
  simp only [register_rd, register_rs1, lift_ok_bind, decodePrivileged_eq]
  generalize Instruction.fieldFunct3 word = funct3
  split <;> rfl

theorem decode_eq (word : Word) : decode word = settled (Instruction.decode word) := by
  unfold decode
  simp only [register_rd, register_rs1, register_rs2, lift_ok_bind, decodeOpImm_eq,
    decodeAtomic_eq, decodeSystem_eq]
  fun_cases Instruction.decode word
  -- What the plain decoder has found in the word decides about the one that asks as well.
  all_goals simp only [*]
  all_goals rfl

/-! ## Parcels -/

/-- A run of bits in a parcel, from `high` down to `low`, and the place it is moved to. -/
structure Piece where
  high : Nat
  low : Nat
  place : Nat
deriving DecidableEq

namespace Piece

/-- The piece lies in a parcel and is moved to a place in a word. -/
def Fits (piece : Piece) : Prop := piece.low ≤ piece.high ∧ piece.high < 16 ∧ piece.place < 32

instance (piece : Piece) : Decidable piece.Fits := inferInstanceAs (Decidable (_ ∧ _ ∧ _))

/-- What a parcel holds there, moved. -/
def value (piece : Piece) (parcel : Half) : Word :=
  (Instruction.bits parcel piece.high piece.low).setWidth 32 <<< piece.place

/-- What a parcel holds there, moved, by way of shifts and a mask. -/
def cut (piece : Piece) (parcel : Half) : Checked Word := do
  let width ← add (← sub (BitVec.ofNat 32 piece.high) (BitVec.ofNat 32 piece.low)) 1
  let lowered ← shiftRight (parcel.setWidth 32 : Word) piece.low
  let mask ← lowMask width.toNat
  shiftLeft (lowered &&& mask) piece.place

theorem cut_eq (parcel : Half) {piece : Piece} (fits : piece.Fits) :
    piece.cut parcel = .ok (piece.value parcel) := by
  obtain ⟨high, low, place⟩ := piece
  obtain ⟨ordered, inside, moved⟩ : low ≤ high ∧ high < 16 ∧ place < 32 := fits
  have distance : sub (BitVec.ofNat 32 high) (BitVec.ofNat 32 low) =
      .ok (BitVec.ofNat 32 (high - low)) := by
    rw [sub_eq (by bv_omega)]
    refine congrArg Except.ok (BitVec.eq_of_toNat_eq ?_)
    bv_omega
  have count : (BitVec.ofNat 32 (high - low) + 1).toNat = high - low + 1 := by bv_omega
  have below : high - low + 1 < 32 := by omega
  have masked : (parcel.setWidth 32 : Word) >>> low &&& ((1 : Word) <<< (high - low + 1) - 1) =
      (Instruction.bits parcel high low).setWidth 32 := by
    refine BitVec.eq_of_toNat_eq ?_
    have narrow : high - low + 1 ≤ 32 := Nat.le_of_lt below
    rw [toNat_and_mask _ (toNat_lowMask below), BitVec.toNat_ushiftRight,
      BitVec.toNat_setWidth_of_le (by decide), BitVec.toNat_setWidth_of_le narrow]
    exact (BitVec.extractLsb_toNat high low parcel).symm
  unfold cut
  dsimp only
  rw [distance, ok_bind, add_eq (by bv_omega), ok_bind, shiftRight_eq _ (by omega), ok_bind,
    count, lowMask_eq below, ok_bind, shiftLeft_eq _ moved, masked]
  rfl

end Piece

/-- Pieces of a parcel put together. -/
def join (parcel : Half) (pieces : List Piece) : Checked Word :=
  pieces.foldlM (fun sum piece => return sum ||| (← piece.cut parcel)) 0#32

/-- The pieces of a parcel as one word. -/
def joined (parcel : Half) (pieces : List Piece) : Word :=
  pieces.foldl (fun sum piece => sum ||| piece.value parcel) 0#32

theorem join_eq (parcel : Half) {pieces : List Piece} (fit : ∀ piece ∈ pieces, piece.Fits) :
    join parcel pieces = .ok (joined parcel pieces) := by
  refine foldlM_eq (fun piece member sum => ?_) 0#32
  rw [Piece.cut_eq parcel (fit piece member)]
  rfl

/-- The order of pieces does not matter. -/
theorem joined_perm (parcel : Half) {first second : List Piece} (same : first.Perm second) :
    joined parcel first = joined parcel second := by
  refine same.foldl_eq' (fun piece _ other _ sum => ?_) 0#32
  rw [BitVec.or_assoc, BitVec.or_assoc, BitVec.or_comm (piece.value parcel)]

/-- Pieces that lie side by side make one. -/
theorem or_append {high low : Nat} {upper lower : Nat} (first : BitVec upper)
    (second : BitVec lower) (beside : high = low + lower) :
    first.setWidth 32 <<< high ||| second.setWidth 32 <<< low =
      ((first ++ second).setWidth 32 <<< low : Word) := by
  ext index inside
  grind

/-- A piece may begin with zeros. -/
theorem append_zeros {upper : Nat} (first : BitVec upper) (count : Nat) :
    (first.setWidth 32 <<< count : Word) = (first ++ (0 : BitVec count)).setWidth 32 <<< 0 := by
  ext index inside
  grind

/-- The word whose low bits are a value with its sign. -/
def extend (value : Word) (bits : Nat) : Checked Word := do
  let distance ← sub 32 (BitVec.ofNat 32 bits)
  shift BitVec.sshiftRight (← shiftLeft value distance.toNat) distance.toNat

theorem extend_eq (value : Word) {bits : Nat} (positive : 0 < bits) (inside : bits ≤ 32) :
    extend value bits = .ok ((value.setWidth bits).signExtend 32) := by
  have distance : sub (32 : Word) (BitVec.ofNat 32 bits) = .ok (BitVec.ofNat 32 (32 - bits)) := by
    rw [sub_eq (by bv_omega)]
    refine congrArg Except.ok (BitVec.eq_of_toNat_eq ?_)
    bv_omega
  have less : (BitVec.ofNat 32 (32 - bits)).toNat = 32 - bits := by
    rw [BitVec.toNat_ofNat, Nat.mod_eq_of_lt (by omega)]
  have below : 32 - bits < 32 := by omega
  rw [extend, distance, ok_bind, less, shiftLeft_eq _ below, ok_bind, shift_eq _ _ below]
  refine congrArg Except.ok ?_
  ext index within
  grind

/-- The number of `bits` bits in a parcel, from `high` down to `low`. -/
def number (parcel : Half) (high low bits : Nat) : Checked (BitVec bits) := do
  field bits (← Piece.cut ⟨high, low, 0⟩ parcel).toNat

/-- The register named by the five bits of a parcel from `high` down. -/
def longRegister (parcel : Half) (high : Nat) : Checked Reg := do
  let low ← sub (BitVec.ofNat 32 high) 4
  number parcel high low.toNat 5

/-- The register named by the three bits of a parcel from `high` down. -/
def shortRegister (parcel : Half) (high : Nat) : Checked Reg := do
  let low ← sub (BitVec.ofNat 32 high) 2
  let short ← number parcel high low.toNat 3
  return (← add (8 : Byte) (short.setWidth 8)).setWidth 5

/-- The bits of a parcel from `high` down to `low`, by which a choice is made. -/
def selector (parcel : Half) (high low : Nat) : Checked (BitVec (high - low + 1)) :=
  return (← Piece.cut ⟨high, low, 0⟩ parcel).setWidth (high - low + 1)

theorem cut_number (parcel : Half) {high low : Nat} (ordered : low ≤ high) (inside : high < 16) :
    Piece.cut ⟨high, low, 0⟩ parcel = .ok ((Instruction.bits parcel high low).setWidth 32) := by
  rw [Piece.cut_eq parcel ⟨ordered, inside, Nat.zero_lt_succ 31⟩]
  exact congrArg Except.ok (BitVec.shiftLeft_zero _)

theorem selector_eq (parcel : Half) {high low : Nat} (ordered : low ≤ high) (inside : high < 16) :
    selector parcel high low = .ok (Instruction.bits parcel high low) := by
  have narrow : high - low + 1 ≤ 32 := by omega
  rw [selector, cut_number parcel ordered inside]
  exact congrArg Except.ok (BitVec.setWidth_setWidth_of_le _ narrow |>.trans (BitVec.setWidth_eq _))

theorem number_eq (parcel : Half) {high low bits : Nat} (ordered : low ≤ high) (inside : high < 16)
    (size : high - low + 1 = bits) :
    number parcel high low bits = .ok ((Instruction.bits parcel high low).cast size) := by
  subst size
  have narrow : high - low + 1 ≤ 32 := by omega
  have same : ((Instruction.bits parcel high low).setWidth 32).toNat =
      (Instruction.bits parcel high low).toNat := BitVec.toNat_setWidth_of_le narrow
  rw [number, cut_number parcel ordered inside, ok_bind, same, field_eq _ (BitVec.isLt _)]
  exact congrArg Except.ok (BitVec.setWidth_eq _)

theorem longRegister_rd (parcel : Half) :
    longRegister parcel 11 = .ok (Instruction.compressedRd parcel) := by
  have low : sub (BitVec.ofNat 32 11) 4 = .ok 7 := rfl
  rw [longRegister, low]
  exact @number_eq parcel 11 7 5 (by decide) (by decide) rfl

theorem longRegister_rs2 (parcel : Half) :
    longRegister parcel 6 = .ok (Instruction.compressedRs2 parcel) := by
  have low : sub (BitVec.ofNat 32 6) 4 = .ok 2 := rfl
  rw [longRegister, low]
  exact @number_eq parcel 6 2 5 (by decide) (by decide) rfl

theorem add_short (short : BitVec 3) :
    (return (← add (8 : Byte) (short.setWidth 8)).setWidth 5 : Checked Reg) =
      .ok (Reg.ofShort short) := by
  revert short
  decide

theorem shortRegister_rs1 (parcel : Half) :
    shortRegister parcel 9 = .ok (Instruction.shortRs1 parcel) := by
  have low : sub (BitVec.ofNat 32 9) 2 = .ok 7 := rfl
  have short : number parcel 9 (7 : Word).toNat 3 = .ok (Instruction.bits parcel 9 7) :=
    @number_eq parcel 9 7 3 (by decide) (by decide) rfl
  rw [shortRegister, low, ok_bind, short, ok_bind]
  exact add_short _

theorem shortRegister_rs2 (parcel : Half) :
    shortRegister parcel 4 = .ok (Instruction.shortRs2 parcel) := by
  have low : sub (BitVec.ofNat 32 4) 2 = .ok 2 := rfl
  have short : number parcel 4 (2 : Word).toNat 3 = .ok (Instruction.bits parcel 4 2) :=
    @number_eq parcel 4 2 3 (by decide) (by decide) rfl
  rw [shortRegister, low, ok_bind, short, ok_bind]
  exact add_short _

/-- A number whose bits stand in the pieces put together. -/
def unsigned (parcel : Half) (pieces : List Piece) (width : Nat) : Checked (BitVec width) :=
  return (← join parcel pieces).setWidth width

/-- A number with its sign, of which `size` bits stand in the pieces put together, from the bit
`low` on. -/
def signed (parcel : Half) (pieces : List Piece) (size low width : Nat) : Checked (BitVec width) :=
  return (← extend (← join parcel pieces) (size + low)).extractLsb' low width

theorem unsigned_eq {parcel : Half} {pieces : List Piece} {width : Nat} {value : BitVec width}
    (fit : ∀ piece ∈ pieces, piece.Fits) (same : (joined parcel pieces).setWidth width = value) :
    unsigned parcel pieces width = .ok value := by
  rw [unsigned, join_eq parcel fit, ← same]
  rfl

theorem signed_eq {parcel : Half} {pieces : List Piece} {size low width : Nat}
    {value : BitVec size} (fit : ∀ piece ∈ pieces, piece.Fits) (positive : 0 < size)
    (inside : size + low ≤ 32) (fits : low + width ≤ 32)
    (same : joined parcel pieces = value.setWidth 32 <<< low) :
    signed parcel pieces size low width = .ok (value.signExtend width) := by
  have lowBits : (value.setWidth 32 <<< low : Word).setWidth (size + low) =
      value ++ (0 : BitVec low) := by
    ext index within
    grind
  have extended :
      ((value ++ (0 : BitVec low)).signExtend 32).extractLsb' low width =
        value.signExtend width := by
    ext index within
    grind
  rw [signed, join_eq parcel fit, ok_bind, extend_eq _ (Nat.add_pos_left positive low) inside, same,
    lowBits, ← extended]
  rfl

def immediateCI (parcel : Half) : Checked (BitVec 12) :=
  signed parcel [⟨12, 12, 5⟩, ⟨6, 2, 0⟩] 6 0 12

def immediateLui (parcel : Half) : Checked (BitVec 20) :=
  signed parcel [⟨12, 12, 17⟩, ⟨6, 2, 12⟩] 6 12 20

def immediateAddi16sp (parcel : Half) : Checked (BitVec 12) :=
  signed parcel [⟨12, 12, 9⟩, ⟨6, 6, 4⟩, ⟨5, 5, 6⟩, ⟨4, 3, 7⟩, ⟨2, 2, 5⟩] 10 0 12

def offsetCJ (parcel : Half) : Checked (BitVec 20) :=
  signed parcel [⟨12, 12, 11⟩, ⟨11, 11, 4⟩, ⟨10, 9, 8⟩, ⟨8, 8, 10⟩, ⟨7, 7, 6⟩, ⟨6, 6, 7⟩, ⟨5, 3, 1⟩,
    ⟨2, 2, 5⟩] 11 1 20

def offsetCB (parcel : Half) : Checked (BitVec 12) :=
  signed parcel [⟨12, 12, 8⟩, ⟨11, 10, 3⟩, ⟨6, 5, 6⟩, ⟨4, 3, 1⟩, ⟨2, 2, 5⟩] 8 1 12

def immediateAddi4spn (parcel : Half) : Checked (BitVec 12) :=
  unsigned parcel [⟨12, 11, 4⟩, ⟨10, 7, 6⟩, ⟨6, 6, 2⟩, ⟨5, 5, 3⟩] 12

def offsetCL (parcel : Half) : Checked (BitVec 12) :=
  unsigned parcel [⟨12, 10, 3⟩, ⟨6, 6, 2⟩, ⟨5, 5, 6⟩] 12

def offsetLwsp (parcel : Half) : Checked (BitVec 12) :=
  unsigned parcel [⟨12, 12, 5⟩, ⟨6, 4, 2⟩, ⟨3, 2, 6⟩] 12

def offsetSwsp (parcel : Half) : Checked (BitVec 12) :=
  unsigned parcel [⟨12, 9, 2⟩, ⟨8, 7, 6⟩] 12

def shiftAmount (parcel : Half) : Checked (BitVec 5) := do
  field 5 ((← join parcel [⟨12, 12, 5⟩, ⟨6, 2, 0⟩]) &&& 0x1F).toNat

theorem immediateCI_eq (parcel : Half) :
    immediateCI parcel = .ok (Instruction.immediateCI parcel) := by
  refine signed_eq (by decide) (by decide) (by decide) (by decide) ?_
  simp (disch := decide) only [joined, List.foldl, Piece.value, BitVec.zero_or, or_append]

theorem immediateLui_eq (parcel : Half) :
    immediateLui parcel = .ok (Instruction.immediateLui parcel) := by
  refine signed_eq (by decide) (by decide) (by decide) (by decide) ?_
  simp (disch := decide) only [joined, List.foldl, Piece.value, BitVec.zero_or, or_append]

theorem immediateAddi16sp_eq (parcel : Half) :
    immediateAddi16sp parcel = .ok (Instruction.immediateAddi16sp parcel) := by
  have sorted : List.Perm [⟨12, 12, 9⟩, ⟨6, 6, 4⟩, ⟨5, 5, 6⟩, ⟨4, 3, 7⟩, ⟨2, 2, 5⟩]
      [(⟨12, 12, 9⟩ : Piece), ⟨4, 3, 7⟩, ⟨5, 5, 6⟩, ⟨2, 2, 5⟩, ⟨6, 6, 4⟩] := by decide
  refine signed_eq (by decide) (by decide) (by decide) (by decide) ?_
  rw [joined_perm parcel sorted]
  simp (disch := decide) only [joined, List.foldl, Piece.value, BitVec.zero_or, or_append]
  exact append_zeros _ 4

theorem offsetCJ_eq (parcel : Half) : offsetCJ parcel = .ok (Instruction.offsetCJ parcel) := by
  have sorted : List.Perm [⟨12, 12, 11⟩, ⟨11, 11, 4⟩, ⟨10, 9, 8⟩, ⟨8, 8, 10⟩, ⟨7, 7, 6⟩, ⟨6, 6, 7⟩,
        ⟨5, 3, 1⟩, ⟨2, 2, 5⟩]
      [(⟨12, 12, 11⟩ : Piece), ⟨8, 8, 10⟩, ⟨10, 9, 8⟩, ⟨6, 6, 7⟩, ⟨7, 7, 6⟩, ⟨2, 2, 5⟩, ⟨11, 11, 4⟩,
        ⟨5, 3, 1⟩] := by decide
  refine signed_eq (by decide) (by decide) (by decide) (by decide) ?_
  rw [joined_perm parcel sorted]
  simp (disch := decide) only [joined, List.foldl, Piece.value, BitVec.zero_or, or_append]

theorem offsetCB_eq (parcel : Half) : offsetCB parcel = .ok (Instruction.offsetCB parcel) := by
  have sorted : List.Perm [⟨12, 12, 8⟩, ⟨11, 10, 3⟩, ⟨6, 5, 6⟩, ⟨4, 3, 1⟩, ⟨2, 2, 5⟩]
      [(⟨12, 12, 8⟩ : Piece), ⟨6, 5, 6⟩, ⟨2, 2, 5⟩, ⟨11, 10, 3⟩, ⟨4, 3, 1⟩] := by decide
  refine signed_eq (by decide) (by decide) (by decide) (by decide) ?_
  rw [joined_perm parcel sorted]
  simp (disch := decide) only [joined, List.foldl, Piece.value, BitVec.zero_or, or_append]

theorem immediateAddi4spn_eq (parcel : Half) :
    immediateAddi4spn parcel = .ok (Instruction.immediateAddi4spn parcel) := by
  refine unsigned_eq (by decide) ?_
  simp only [joined, List.foldl, Piece.value, Instruction.immediateAddi4spn]
  ext index inside
  grind

theorem offsetCL_eq (parcel : Half) : offsetCL parcel = .ok (Instruction.offsetCL parcel) := by
  refine unsigned_eq (by decide) ?_
  simp only [joined, List.foldl, Piece.value, Instruction.offsetCL]
  ext index inside
  grind

theorem offsetLwsp_eq (parcel : Half) :
    offsetLwsp parcel = .ok (Instruction.offsetLwsp parcel) := by
  refine unsigned_eq (by decide) ?_
  simp only [joined, List.foldl, Piece.value, Instruction.offsetLwsp]
  ext index inside
  grind

theorem offsetSwsp_eq (parcel : Half) :
    offsetSwsp parcel = .ok (Instruction.offsetSwsp parcel) := by
  refine unsigned_eq (by decide) ?_
  simp only [joined, List.foldl, Piece.value, Instruction.offsetSwsp]
  ext index inside
  grind

theorem shiftAmount_eq (parcel : Half) :
    shiftAmount parcel = .ok (Instruction.bits parcel 6 2) := by
  have low : (joined parcel [⟨12, 12, 5⟩, ⟨6, 2, 0⟩]).setWidth 5 = Instruction.bits parcel 6 2 := by
    simp only [joined, List.foldl, Piece.value]
    ext index inside
    grind
  rw [shiftAmount, join_eq parcel (by decide), ok_bind, field_mask _ rfl, low]

/-! ## Compressed instructions -/

def expandQuadrant0 (parcel : Half) (funct3 : BitVec 3) : Decoding Instruction := do
  match funct3 with
  | 0b000 =>
    let immediate ← immediateAddi4spn parcel
    if immediate = 0 then throw .reservedCompressed
    else return .opImm .addi (← shortRegister parcel 4) Reg.sp immediate
  | 0b010 =>
    return .load .lw (← shortRegister parcel 4) (← shortRegister parcel 9) (← offsetCL parcel)
  | 0b110 =>
    return .store .word (← shortRegister parcel 4) (← shortRegister parcel 9) (← offsetCL parcel)
  | _ => throw .illegal

def expandUpper (parcel : Half) : Decoding Instruction := do
  let rd ← longRegister parcel 11
  if rd = Reg.sp then
    let immediate ← immediateAddi16sp parcel
    if immediate = 0 then throw .reservedCompressed else return .opImm .addi rd rd immediate
  else if rd = Reg.zero then return Instruction.nop
  else
    let immediate ← immediateLui parcel
    if immediate = 0 then throw .reservedCompressed else return .lui rd immediate

def expandArithmetic (parcel : Half) : Decoding Instruction := do
  let rd ← shortRegister parcel 9
  let inPlace (op : RegOp) : Decoding Instruction := do
    return .opReg op rd rd (← shortRegister parcel 4)
  match ← selector parcel 11 10 with
  | 0b00 => return .shiftImm .srli rd rd (← shiftAmount parcel)
  | 0b01 => return .shiftImm .srai rd rd (← shiftAmount parcel)
  | 0b10 => return .opImm .andi rd rd (← immediateCI parcel)
  | 0b11 =>
    if (← selector parcel 12 12) ≠ 0 then throw .reservedCompressed
    else
      match ← selector parcel 6 5 with
      | 0b00 => inPlace .sub
      | 0b01 => inPlace .xor
      | 0b10 => inPlace .or
      | 0b11 => inPlace .and

def expandQuadrant1 (parcel : Half) (funct3 : BitVec 3) : Decoding Instruction := do
  match funct3 with
  | 0b000 =>
    let rd ← longRegister parcel 11
    return .opImm .addi rd rd (← immediateCI parcel)
  | 0b001 => return .jal Reg.ra (← offsetCJ parcel)
  | 0b010 => return .opImm .addi (← longRegister parcel 11) Reg.zero (← immediateCI parcel)
  | 0b011 => expandUpper parcel
  | 0b100 => expandArithmetic parcel
  | 0b101 => return .jal Reg.zero (← offsetCJ parcel)
  | 0b110 => return .branch .beq (← shortRegister parcel 9) Reg.zero (← offsetCB parcel)
  | 0b111 => return .branch .bne (← shortRegister parcel 9) Reg.zero (← offsetCB parcel)

def expandJumpOrMove (parcel : Half) : Decoding Instruction := do
  let rd ← longRegister parcel 11
  let rs2 ← longRegister parcel 6
  if (← selector parcel 12 12) = 0 then
    if rs2 = Reg.zero then
      if rd = Reg.zero then throw .reservedCompressed else return .jalr Reg.zero rd 0
    else return .opReg .add rd Reg.zero rs2
  else
    if rs2 = Reg.zero then
      if rd = Reg.zero then return .ebreak else return .jalr Reg.ra rd 0
    else return .opReg .add rd rd rs2

def expandQuadrant2 (parcel : Half) (funct3 : BitVec 3) : Decoding Instruction := do
  match funct3 with
  | 0b000 =>
    let rd ← longRegister parcel 11
    return .shiftImm .slli rd rd (← shiftAmount parcel)
  | 0b010 =>
    let rd ← longRegister parcel 11
    if rd = Reg.zero then throw .reservedCompressed
    else return .load .lw rd Reg.sp (← offsetLwsp parcel)
  | 0b100 => expandJumpOrMove parcel
  | 0b110 => return .store .word (← longRegister parcel 6) Reg.sp (← offsetSwsp parcel)
  | _ => throw .illegal

/-- The instruction that a compressed one stands for. -/
def expand (parcel : Half) : Decoding Instruction := do
  if parcel = 0 then throw .illegal
  else
    let funct3 ← selector parcel 15 13
    match Instruction.bits parcel 1 0 with
    | 0b00 => expandQuadrant0 parcel funct3
    | 0b01 => expandQuadrant1 parcel funct3
    | 0b10 => expandQuadrant2 parcel funct3
    | 0b11 => throw .illegal

theorem expandQuadrant0_eq (parcel : Half) :
    expandQuadrant0 parcel (Instruction.bits parcel 15 13) =
      settled (Instruction.expandQuadrant0 parcel) := by
  unfold expandQuadrant0 Instruction.expandQuadrant0
  simp only [immediateAddi4spn_eq, shortRegister_rs1, shortRegister_rs2, offsetCL_eq, lift_ok_bind]
  generalize Instruction.bits parcel 15 13 = funct3
  split
  case h_1 => split <;> rfl
  case h_4 => split <;> first | contradiction | rfl
  all_goals rfl

theorem expandUpper_eq (parcel : Half) :
    expandUpper parcel = settled (Instruction.expandUpper parcel) := by
  unfold expandUpper Instruction.expandUpper
  simp only [longRegister_rd, immediateAddi16sp_eq, immediateLui_eq, lift_ok_bind]
  split
  · split <;> rfl
  · split
    · rfl
    · split <;> rfl

theorem expandArithmetic_eq (parcel : Half) :
    expandArithmetic parcel = settled (Instruction.expandArithmetic parcel) := by
  unfold expandArithmetic Instruction.expandArithmetic
  simp (disch := decide) only [shortRegister_rs1, shortRegister_rs2, selector_eq, shiftAmount_eq,
    immediateCI_eq, lift_ok_bind]
  generalize Instruction.bits parcel 11 10 = operation
  split
  case h_4 =>
    split
    · rfl
    · generalize Instruction.bits parcel 6 5 = operation
      split <;> rfl
  all_goals rfl

theorem expandQuadrant1_eq (parcel : Half) :
    expandQuadrant1 parcel (Instruction.bits parcel 15 13) =
      settled (Instruction.expandQuadrant1 parcel) := by
  unfold expandQuadrant1 Instruction.expandQuadrant1
  simp only [longRegister_rd, shortRegister_rs1, immediateCI_eq, offsetCJ_eq, offsetCB_eq,
    expandUpper_eq, expandArithmetic_eq, lift_ok_bind]
  generalize Instruction.bits parcel 15 13 = funct3
  split <;> rfl

theorem expandJumpOrMove_eq (parcel : Half) :
    expandJumpOrMove parcel = settled (Instruction.expandJumpOrMove parcel) := by
  unfold expandJumpOrMove Instruction.expandJumpOrMove
  simp (disch := decide) only [longRegister_rd, longRegister_rs2, selector_eq, lift_ok_bind]
  split
  · split
    · split <;> rfl
    · rfl
  · split
    · split <;> rfl
    · rfl

theorem expandQuadrant2_eq (parcel : Half) :
    expandQuadrant2 parcel (Instruction.bits parcel 15 13) =
      settled (Instruction.expandQuadrant2 parcel) := by
  unfold expandQuadrant2 Instruction.expandQuadrant2
  simp only [longRegister_rd, longRegister_rs2, shiftAmount_eq, offsetLwsp_eq, offsetSwsp_eq,
    expandJumpOrMove_eq, lift_ok_bind]
  generalize Instruction.bits parcel 15 13 = funct3
  split
  case h_2 => split <;> rfl
  case h_5 => split <;> first | contradiction | rfl
  all_goals rfl

/-- No parcel leads to a breach, and it is decoded as `Instruction.expand` says. -/
theorem expand_eq (parcel : Half) : expand parcel = settled (Instruction.expand parcel) := by
  unfold expand Instruction.expand
  simp (disch := decide) only [selector_eq, lift_ok_bind, expandQuadrant0_eq, expandQuadrant1_eq,
    expandQuadrant2_eq]
  split
  · rfl
  · generalize Instruction.bits parcel 1 0 = quadrant
    split <;> rfl

end Rv32.Checked
