import Rv32.Proofs.MemoryBytes

/-!
# Mailboxes are byte memory

A mailbox of the host-target interface is a word of 64 bits that accesses shift and mask. To those
who access it, it is a memory of eight bytes: whatever was written, a read gives the bytes that two
such memories would hold (`ByteBoxes`), and `tohost` is the number that the bytes of the first stand
for (`Htif.mailboxes_are_bytes`). Of a value that is written, the bits above the size of the access
are not looked at.

`Ram.Holds` relates a memory to the mailbox in place of which it stands; each write keeps it.
-/

namespace Rv32

/-- The double word whose bytes are `bytes 0` (least significant) to `bytes 7`. -/
def DoubleWord.ofBytes (bytes : Nat → Byte) : DoubleWord :=
  Word.ofBytes (fun index => bytes (4 + index)) ++ Word.ofBytes bytes

/-- Two memories, one in place of each mailbox. -/
structure ByteBoxes where
  tohost : Ram
  fromhost : Ram

namespace ByteBoxes

/-- Two memories of eight zero bytes. -/
def zeros : ByteBoxes := ⟨.zeros 8, .zeros 8⟩

/-- A read takes its bytes from the memory that holds the first of them. -/
def read (boxes : ByteBoxes) (offset : Word) (width : Width) : Word :=
  if offset < 8 then boxes.tohost.read offset width
  else if 0x40 ≤ offset ∧ offset < 0x48 then boxes.fromhost.read (offset - 0x40) width
  else 0

/-- A store goes to the memory that holds its first byte. Its address is an offset here. -/
def apply (boxes : ByteBoxes) (store : Store) : ByteBoxes :=
  if store.address < 8 then
    { boxes with tohost := boxes.tohost.write store.address store.value store.width }
  else if 0x40 ≤ store.address ∧ store.address < 0x48 then
    { boxes with
      fromhost := boxes.fromhost.write (store.address - 0x40) store.value store.width }
  else boxes

/-- The memories after a sequence of stores. -/
def applyAll (boxes : ByteBoxes) (stores : List Store) : ByteBoxes := stores.foldl apply boxes

end ByteBoxes

/-- The store without the bits of its value that do not fit its width. -/
def Store.trimmed (store : Store) : Store :=
  { store with value := store.value &&& store.width.mask }

/-! ## Bytes of words and double words -/

theorem Word.byte_and_mask (value : Word) (width : Width) (index : Nat) :
    byte (value &&& width.mask) index = if index < width.bytes then byte value index else 0 := by
  apply BitVec.eq_of_getLsbD_eq
  intro bit inside
  unfold byte
  rw [BitVec.getLsbD_extractLsb', BitVec.getLsbD_and, Width.getLsbD_mask]
  by_cases named : index < width.bytes
  · have masked : 8 * index + bit < 8 * width.bytes := by omega
    rw [if_pos named, BitVec.getLsbD_extractLsb', decide_eq_true masked, Bool.and_true]
  · have unmasked : ¬ 8 * index + bit < 8 * width.bytes := by omega
    rw [if_neg named, decide_eq_false unmasked, Bool.and_false, Bool.and_false]
    exact BitVec.getLsbD_zero.symm

namespace DoubleWord

theorem byte_of_le (value : DoubleWord) {index : Nat} (beyond : 8 ≤ index) :
    byte value index = 0 := by
  apply BitVec.eq_of_getLsbD_eq
  intro bit inside
  unfold byte
  rw [BitVec.getLsbD_extractLsb', BitVec.getLsbD_of_ge _ _ (by omega), Bool.and_false]
  exact BitVec.getLsbD_zero.symm

/-- The bytes of four that follow one another. -/
theorem byte_extractLsb' (value : DoubleWord) (start : Nat) {index : Nat} (inside : index < 4) :
    Word.byte (value.extractLsb' (8 * start) 32) index = byte value (start + index) := by
  apply BitVec.eq_of_getLsbD_eq
  intro bit low
  have near : 8 * index + bit < 32 := by omega
  have place : 8 * start + (8 * index + bit) = 8 * (start + index) + bit := by omega
  unfold Word.byte byte
  rw [BitVec.getLsbD_extractLsb', BitVec.getLsbD_extractLsb', BitVec.getLsbD_extractLsb', place,
    decide_eq_true near, Bool.true_and]

theorem ofBytes_byte (value : DoubleWord) : ofBytes (byte value) = value := by
  have high : Word.ofBytes (fun index => byte value (4 + index)) = value.extractLsb' 32 32 := by
    refine Word.eq_of_bytes fun index inside => ?_
    rw [Word.byte_ofBytes _ inside]
    exact (byte_extractLsb' value 4 inside).symm
  have low : Word.ofBytes (byte value) = value.extractLsb' 0 32 := by
    refine Word.eq_of_bytes fun index inside => ?_
    rw [Word.byte_ofBytes _ inside]
    refine Eq.trans ?_ (byte_extractLsb' value 0 inside).symm
    rw [Nat.zero_add]
  unfold ofBytes
  rw [high, low, append_halves]

end DoubleWord

/-! ## One mailbox -/

/-- The memory holds the eight bytes of a double word. -/
structure Ram.Holds (ram : Ram) (contents : DoubleWord) : Prop where
  size : ram.size = 8
  byte : ∀ index, ram.byte index = DoubleWord.byte contents index

namespace Ram.Holds

variable {ram : Ram} {contents : DoubleWord}

theorem zeros : (Ram.zeros 8).Holds 0 where
  size := Ram.size_zeros 8
  byte := fun index => by
    rw [Ram.byte_zeros]
    exact BitVec.extractLsb'_zero.symm

theorem ofBytes (holds : ram.Holds contents) : DoubleWord.ofBytes ram.byte = contents := by
  rw [funext holds.byte, DoubleWord.ofBytes_byte]

/-- To shift and mask a mailbox is to read its bytes, with zeros behind the end. -/
theorem read (holds : ram.Holds contents) (offset : Word) (width : Width) :
    ram.read offset width = (contents >>> (8 * offset.toNat)).setWidth 32 &&& width.mask := by
  refine Word.eq_of_bytes fun index inside => ?_
  unfold Ram.read
  rw [Word.byte_ofBytes _ inside, Word.byte_and_mask, BitVec.setWidth_ushiftRight_eq_extractLsb,
    DoubleWord.byte_extractLsb' _ _ inside, holds.byte]

/-- To merge a value into a mailbox under a mask is to write its bytes, as far as they fit. -/
theorem write (holds : ram.Holds contents) (offset value : Word) (width : Width) :
    (ram.write offset value width).Holds
      (contents &&& ~~~(width.mask.setWidth 64 <<< (8 * offset.toNat)) |||
        value.setWidth 64 <<< (8 * offset.toNat) &&&
          width.mask.setWidth 64 <<< (8 * offset.toNat)) where
  size := (Ram.size_write ..).trans holds.size
  byte := fun index => by
    rw [Ram.byte_write, holds.size, holds.byte]
    -- Behind the eighth byte the memory drops what the shift moves out of the mailbox.
    by_cases inside : index < 8
    · rw [DoubleWord.byte_merge _ _ _ _ inside]
      simp only [inside, and_true]
    · have beyond := Nat.not_lt.1 inside
      rw [if_neg (by omega), DoubleWord.byte_of_le _ beyond, DoubleWord.byte_of_le _ beyond]

end Ram.Holds

/-! ## Both mailboxes -/

namespace Htif

variable {htif : Htif} {boxes : ByteBoxes} {offset : Word}

/-- The mailboxes after a store. -/
def apply (htif : Htif) (store : Store) : Htif := htif.write store.address store.value store.width

/-- The mailboxes after a sequence of stores. -/
def applyAll (htif : Htif) (stores : List Store) : Htif := stores.foldl apply htif

theorem mailbox?_tohost (inside : offset < 8) :
    mailbox? offset = some (.tohost, offset.toNat) :=
  if_pos (BitVec.lt_def.1 inside)

theorem mailbox?_fromhost (inside : 0x40 ≤ offset ∧ offset < 0x48) :
    mailbox? offset = some (.fromhost, (offset - 0x40).toNat) := by
  have above : 64 ≤ offset.toNat := BitVec.le_def.1 inside.1
  have below : offset.toNat < 72 := BitVec.lt_def.1 inside.2
  have place : (offset - 0x40).toNat = offset.toNat - 64 := BitVec.toNat_sub_of_le inside.1
  refine mailbox?_eq_some_iff.2 ⟨?_, by omega⟩
  change offset.toNat = 64 + _
  omega

theorem mailbox?_elsewhere (notTohost : ¬ offset < 8)
    (notFromhost : ¬ (0x40 ≤ offset ∧ offset < 0x48)) : mailbox? offset = none := by
  have notLow : ¬ offset.toNat < 8 := fun low => notTohost (BitVec.lt_def.2 low)
  have notHigh : ¬ (64 ≤ offset.toNat ∧ offset.toNat < 72) := fun high =>
    notFromhost ⟨BitVec.le_def.2 high.1, BitVec.lt_def.2 high.2⟩
  exact (if_neg notLow).trans (if_neg notHigh)

/-- The mailboxes have the bytes of the two memories. -/
structure Mirrors (htif : Htif) (boxes : ByteBoxes) : Prop where
  tohost : boxes.tohost.Holds htif.tohost
  fromhost : boxes.fromhost.Holds htif.fromhost

namespace Mirrors

theorem empty : Htif.empty.Mirrors .zeros := ⟨.zeros, .zeros⟩

theorem read (mirrors : htif.Mirrors boxes) (offset : Word) (width : Width) :
    htif.read offset width = boxes.read offset width := by
  unfold Htif.read ByteBoxes.read
  by_cases inTohost : offset < 8
  · rw [mailbox?_tohost inTohost, if_pos inTohost, mirrors.tohost.read]
    rfl
  · rw [if_neg inTohost]
    by_cases inFromhost : 0x40 ≤ offset ∧ offset < 0x48
    · rw [mailbox?_fromhost inFromhost, if_pos inFromhost, mirrors.fromhost.read]
      rfl
    · rw [mailbox?_elsewhere inTohost inFromhost, if_neg inFromhost]

theorem apply (mirrors : htif.Mirrors boxes) (store : Store) :
    (htif.apply store).Mirrors (boxes.apply store) := by
  unfold Htif.apply Htif.write ByteBoxes.apply
  by_cases inTohost : store.address < 8
  · rw [mailbox?_tohost inTohost, if_pos inTohost]
    exact ⟨mirrors.tohost.write .., mirrors.fromhost⟩
  · rw [if_neg inTohost]
    by_cases inFromhost : 0x40 ≤ store.address ∧ store.address < 0x48
    · rw [mailbox?_fromhost inFromhost, if_pos inFromhost]
      exact ⟨mirrors.tohost, mirrors.fromhost.write ..⟩
    · rw [mailbox?_elsewhere inTohost inFromhost, if_neg inFromhost]
      exact mirrors

theorem applyAll (mirrors : htif.Mirrors boxes) (stores : List Store) :
    (htif.applyAll stores).Mirrors (boxes.applyAll stores) := by
  induction stores generalizing htif boxes with
  | nil => exact mirrors
  | cons store rest ih => exact ih (mirrors.apply store)

end Mirrors

/-- A store changes the mailboxes by the bits of its value that fit its width only. -/
theorem apply_trimmed (htif : Htif) (store : Store) :
    htif.apply store.trimmed = htif.apply store := by
  unfold apply write Store.trimmed
  dsimp only
  rcases mailbox? store.address with _ | ⟨box, index⟩
  · rfl
  · dsimp only
    rw [BitVec.setWidth_and, BitVec.shiftLeft_and_distrib, BitVec.and_assoc, BitVec.and_self]

theorem applyAll_trimmed (htif : Htif) (stores : List Store) :
    htif.applyAll (stores.map Store.trimmed) = htif.applyAll stores := by
  unfold applyAll
  rw [List.foldl_map]
  simp only [apply_trimmed]

/-- Mailboxes are byte memory. Whatever was written to empty ones, in whatever sizes and at whatever
offsets, they read as two memories of eight bytes each that took the same writes, `tohost` is the
number whose bytes, the least significant one first, the first of them holds, and the bits of the
written values above the sizes of the writes made no difference. -/
theorem mailboxes_are_bytes (stores : List Store) :
    (empty.applyAll stores).tohost =
        DoubleWord.ofBytes (ByteBoxes.zeros.applyAll stores).tohost.byte ∧
      (∀ offset width, (empty.applyAll stores).read offset width =
        (ByteBoxes.zeros.applyAll stores).read offset width) ∧
      empty.applyAll (stores.map Store.trimmed) = empty.applyAll stores := by
  have mirrors := Mirrors.empty.applyAll stores
  exact ⟨mirrors.tohost.ofBytes.symm, mirrors.read, applyAll_trimmed _ stores⟩

/-- Two bytes fit and two are lost, and a read finds a zero behind them. -/
example : (empty.applyAll [⟨6, 0x44332211, .word⟩]).read 5 .word = 0x221100 := by
  decide

end Htif

end Rv32
