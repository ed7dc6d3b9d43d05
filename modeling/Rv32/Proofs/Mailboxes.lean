import Rv32.Device.Htif

/-!
# Mailboxes byte by byte

A mailbox of the host-target interface is a word of 64 bits that accesses change by masks. Byte by
byte, a write replaces what it names in the mailbox that holds its first byte, as far as this
mailbox reaches, and nothing else (`Htif.byteAt_write_outside`).
-/

namespace Rv32

/-- The byte of `value` with weight `256 ^ index`. -/
def DoubleWord.byte (value : DoubleWord) (index : Nat) : Byte := value.extractLsb' (8 * index) 8

theorem Width.getLsbD_mask (width : Width) (bit : Nat) :
    width.mask.getLsbD bit = decide (bit < 8 * width.bytes) := by
  have low : width.mask.toNat = 2 ^ (8 * width.bytes) - 1 := by cases width <;> rfl
  unfold BitVec.getLsbD
  rw [low, Nat.testBit_two_pow_sub_one]

/-- The mask that starts at a byte and is as wide as an access. -/
theorem Width.getLsbD_placedMask (width : Width) (start : Nat) {bit : Nat} (inside : bit < 64) :
    ((width.mask.setWidth 64 : DoubleWord) <<< (8 * start)).getLsbD bit =
      decide (8 * start ≤ bit ∧ bit < 8 * start + 8 * width.bytes) := by
  have near : bit - 8 * start < 64 := by omega
  rw [BitVec.getLsbD_shiftLeft, BitVec.getLsbD_setWidth, Width.getLsbD_mask]
  by_cases before : bit < 8 * start
  · have outside : ¬ (8 * start ≤ bit ∧ bit < 8 * start + 8 * width.bytes) := by omega
    simp only [before, outside, decide_true, decide_false, Bool.not_true, Bool.and_false,
      Bool.false_and]
  · have same : bit - 8 * start < 8 * width.bytes ↔
        8 * start ≤ bit ∧ bit < 8 * start + 8 * width.bytes := by omega
    simp only [before, inside, near, same, decide_true, decide_false, Bool.not_false,
      Bool.true_and]

/-- What is written under a mask that starts at a byte and is as wide as an access. -/
theorem DoubleWord.byte_merge (old : DoubleWord) (value : Word) (width : Width) (start : Nat)
    {index : Nat} (inside : index < 8) :
    byte (old &&& ~~~(width.mask.setWidth 64 <<< (8 * start)) |||
        value.setWidth 64 <<< (8 * start) &&& width.mask.setWidth 64 <<< (8 * start)) index =
      if start ≤ index ∧ index < start + width.bytes then Word.byte value (index - start)
      else byte old index := by
  apply BitVec.eq_of_getLsbD_eq
  intro bit bitInside
  have place : 8 * index + bit < 64 := by omega
  unfold byte
  rw [BitVec.getLsbD_extractLsb', BitVec.getLsbD_or, BitVec.getLsbD_and, BitVec.getLsbD_and,
    BitVec.getLsbD_not, Width.getLsbD_placedMask width start place]
  by_cases named : start ≤ index ∧ index < start + width.bytes
  · have masked : 8 * start ≤ 8 * index + bit ∧
        8 * index + bit < 8 * start + 8 * width.bytes := by omega
    have notBefore : ¬ 8 * index + bit < 8 * start := by omega
    have near : 8 * index + bit - 8 * start < 64 := by omega
    have moved : 8 * index + bit - 8 * start = 8 * (index - start) + bit := by omega
    rw [if_pos named, BitVec.getLsbD_shiftLeft, BitVec.getLsbD_setWidth, moved, Word.byte,
      BitVec.getLsbD_extractLsb']
    rw [moved] at near
    simp only [masked, notBefore, near, place, and_self, decide_true, decide_false, Bool.not_true,
      Bool.not_false, Bool.and_false, Bool.and_true, Bool.true_and, Bool.false_or]
  · have unmasked : ¬ (8 * start ≤ 8 * index + bit ∧
        8 * index + bit < 8 * start + 8 * width.bytes) := by omega
    rw [if_neg named, BitVec.getLsbD_extractLsb']
    simp only [unmasked, place, decide_true, decide_false, Bool.not_false, Bool.and_true,
      Bool.and_false, Bool.or_false]

namespace Htif

/-- The offset of a mailbox. -/
def Mailbox.start : Mailbox → Nat
  | .tohost => 0
  | .fromhost => fromhostOffset

theorem mailbox?_eq_some_iff {offset : Word} {box : Mailbox} {index : Nat} :
    mailbox? offset = some (box, index) ↔ offset.toNat = box.start + index ∧ index < 8 := by
  unfold mailbox? fromhostOffset
  dsimp only
  constructor
  · intro found
    split at found
    · cases found
      exact ⟨(Nat.zero_add _).symm, ‹_›⟩
    · split at found
      · rename_i inside
        cases found
        exact ⟨(Nat.add_sub_of_le inside.1).symm, by omega⟩
      · cases found
  · rintro ⟨place, inside⟩
    cases box with
    | tohost =>
        have same : offset.toNat = index := place.trans (Nat.zero_add index)
        rw [if_pos (by omega), same]
    | fromhost =>
        change offset.toNat = 64 + index at place
        rw [if_neg (by omega), if_pos (by omega), place, Nat.add_sub_cancel_left]

/-- The byte at an offset, zero outside the mailboxes. -/
def byteAt (htif : Htif) (offset : Word) : Byte :=
  match mailbox? offset with
  | some (box, index) => DoubleWord.byte (htif.get box) index
  | none => 0

theorem get_set (htif : Htif) (box other : Mailbox) (value : DoubleWord) :
    (htif.set box value).get other = if box = other then value else htif.get other := by
  cases box <;> cases other <;> rfl

/-- A byte that a write does not name stays. -/
theorem byteAt_write_outside (htif : Htif) {offset other : Word} (value : Word) {width : Width}
    (outside : ¬ (offset.toNat ≤ other.toNat ∧ other.toNat < offset.toNat + width.bytes)) :
    (htif.write offset value width).byteAt other = htif.byteAt other := by
  unfold write byteAt
  rcases here : mailbox? offset with _ | ⟨box, start⟩
  · rfl
  · rcases there : mailbox? other with _ | ⟨otherBox, index⟩
    · rfl
    · obtain ⟨isOffset, -⟩ := mailbox?_eq_some_iff.1 here
      obtain ⟨isOther, inside⟩ := mailbox?_eq_some_iff.1 there
      dsimp only
      rw [get_set]
      by_cases same : box = otherBox
      · subst same
        rw [if_pos rfl, DoubleWord.byte_merge _ _ _ _ inside, if_neg (by omega)]
      · rw [if_neg same]

/-- A read of a byte gives the byte at its offset. -/
theorem setWidth_read_byte (htif : Htif) (offset : Word) :
    (htif.read offset .byte).setWidth 8 = htif.byteAt offset := by
  unfold read byteAt
  rcases mailbox? offset with _ | ⟨box, index⟩
  · rfl
  · apply BitVec.eq_of_getLsbD_eq
    intro bit inside
    have low : bit < 8 * Width.byte.bytes := inside
    have near : bit < 32 := by omega
    dsimp only
    unfold DoubleWord.byte
    simp only [BitVec.getLsbD_setWidth, BitVec.getLsbD_and, Width.getLsbD_mask,
      BitVec.getLsbD_ushiftRight, BitVec.getLsbD_extractLsb', inside, low, near, decide_true,
      Bool.true_and, Bool.and_true]

/-- A mailbox is made of its two words. -/
theorem append_read_tohost (htif : Htif) :
    htif.read 4 .word ++ htif.read 0 .word = htif.tohost := by
  have field (start : Nat) : (htif.tohost >>> (8 * start)).setWidth 32 &&& Width.word.mask =
      htif.tohost.extractLsb' (8 * start) 32 := by
    rw [BitVec.setWidth_ushiftRight_eq_extractLsb]
    exact BitVec.and_allOnes
  have high : htif.read 4 .word = htif.tohost.extractLsb' 32 32 := field 4
  have low : htif.read 0 .word = htif.tohost.extractLsb' 0 32 := field 0
  rw [high, low, DoubleWord.append_halves]

end Htif

end Rv32
