import Rv32.Proofs.BusMap

/-!
# Words of main memory

Where a region of main memory is attached, a read leaves the bus as it is and a write changes the
bytes it names and no others. `Bus.word` is the word at an address, `Bus.InMemory` says that an
address belongs to main memory, and `Bus.word_store_of_ne` that aligned words do not interfere.

That needs a bus on which no device is attached twice (`Bus.Sound`).
-/

namespace Rv32

/-! ## Bytes -/

namespace Ram

theorem size_setBytes (ram : Ram) (start count : Nat) (bytes : Nat → Byte) :
    ((List.range count).foldl (fun ram index => ram.setByte (start + index) (bytes index))
      ram).size = ram.size := by
  induction count with
  | zero => rfl
  | succ count ih =>
      rw [List.range_succ, List.foldl_append]
      exact (size_setByte ..).trans ih

theorem byte_setBytes (ram : Ram) (start count index : Nat) (bytes : Nat → Byte) :
    ((List.range count).foldl (fun ram index => ram.setByte (start + index) (bytes index))
      ram).byte index =
        if start ≤ index ∧ index < start + count ∧ index < ram.size then bytes (index - start)
        else ram.byte index := by
  induction count with
  | zero =>
      have outside : ¬ (start ≤ index ∧ index < start + 0 ∧ index < ram.size) := by omega
      rw [if_neg outside]
      rfl
  | succ count ih =>
      rw [List.range_succ, List.foldl_append, List.foldl_cons, List.foldl_nil, byte_setByte, ih,
        size_setBytes]
      by_cases here : start + count = index
      · subst here
        have last : start + count - start = count := by omega
        by_cases inside : start + count < ram.size
        · rw [if_pos ⟨rfl, inside⟩, if_pos (by omega), last]
        · rw [if_neg (by omega), if_neg (by omega), if_neg (by omega)]
      · rw [if_neg (by omega)]
        by_cases inside : start ≤ index ∧ index < start + count ∧ index < ram.size
        · rw [if_pos inside, if_pos (by omega)]
        · rw [if_neg inside, if_neg (by omega)]

@[simp]
theorem size_write (ram : Ram) (offset value : Word) (width : Width) :
    (ram.write offset value width).size = ram.size :=
  size_setBytes ..

/-- A write is seen at the bytes it names, as far as they lie inside, and nowhere else. -/
theorem byte_write (ram : Ram) (offset value : Word) (width : Width) (index : Nat) :
    (ram.write offset value width).byte index =
      if offset.toNat ≤ index ∧ index < offset.toNat + width.bytes ∧ index < ram.size then
        Word.byte value (index - offset.toNat)
      else ram.byte index :=
  byte_setBytes ..

theorem byte_of_size_le (ram : Ram) {index : Nat} (beyond : ram.size ≤ index) :
    ram.byte index = 0 := by
  unfold byte byteAt
  exact dif_neg (Nat.not_lt.2 beyond)

theorem byte_read (ram : Ram) (offset : Word) {index : Nat} (inside : index < 4) :
    Word.byte (ram.read offset .word) index = ram.byte (offset.toNat + index) := by
  unfold read
  rw [Word.byte_ofBytes _ inside]
  exact if_pos inside

/-- A read depends on the bytes it names only. -/
theorem read_congr {first second : Ram} {offset : Word} {width : Width}
    (same : ∀ index, index < width.bytes →
      second.byte (offset.toNat + index) = first.byte (offset.toNat + index)) :
    second.read offset width = first.read offset width := by
  unfold read
  congr 1
  funext index
  by_cases inside : index < width.bytes
  · rw [if_pos inside, if_pos inside, same index inside]
  · rw [if_neg inside, if_neg inside]

theorem read_markDirty (ram : Ram) (place offset : Word) (width : Width) :
    (ram.markDirty place).read offset width = ram.read offset width :=
  read_congr fun _ _ => rfl

/-- A word that lies apart from what is written stays. -/
theorem read_write_of_apart (ram : Ram) {place offset value : Word} {width : Width}
    (apart : place.toNat + width.bytes ≤ offset.toNat ∨ offset.toNat + 4 ≤ place.toNat) :
    (ram.write place value width).read offset .word = ram.read offset .word := by
  refine read_congr fun index inside => ?_
  rw [byte_write]
  refine if_neg ?_
  change index < 4 at inside
  omega

end Ram

namespace Word

theorem eq_of_bytes {first second : Word}
    (same : ∀ index, index < 4 → byte first index = byte second index) : first = second := by
  rw [← ofBytes_byte first, ← ofBytes_byte second]
  unfold ofBytes
  rw [same 0 (by decide), same 1 (by decide), same 2 (by decide), same 3 (by decide)]

end Word

theorem Word.byte_or (first second : Word) (index : Nat) :
    byte (first ||| second) index = byte first index ||| byte second index :=
  BitVec.extractLsb'_or ..

namespace Ram

/-- Setting bits of the low byte of a word changes that byte only. -/
theorem byte_write_or (ram : Ram) (offset : Word) {bits : Word}
    (low : ∀ index, 0 < index → Word.byte bits index = 0) (index : Nat) :
    (ram.write offset (ram.read offset .word ||| bits) .word).byte index =
      if index = offset.toNat ∧ index < ram.size then ram.byte index ||| Word.byte bits 0
      else ram.byte index := by
  rw [byte_write]
  change (if offset.toNat ≤ index ∧ index < offset.toNat + 4 ∧ index < ram.size then _ else _) = _
  by_cases named : offset.toNat ≤ index ∧ index < offset.toNat + 4 ∧ index < ram.size
  · obtain ⟨above, below, inside⟩ := named
    have place : offset.toNat + (index - offset.toNat) = index := by omega
    rw [if_pos ⟨above, below, inside⟩, Word.byte_or, byte_read _ _ (by omega), place]
    by_cases first : index = offset.toNat
    · rw [if_pos ⟨first, inside⟩, first, Nat.sub_self]
    · rw [if_neg fun both => first both.1, low _ (by omega)]
      exact BitVec.or_zero
  · rw [if_neg named, if_neg]
    rintro ⟨rfl, inside⟩
    exact named ⟨Nat.le_refl _, by omega, inside⟩

/-- What is read back after bits of the low byte of a word were set. -/
theorem read_write_or (ram : Ram) (offset : Word) {bits : Word}
    (low : ∀ index, 0 < index → Word.byte bits index = 0) :
    (ram.write offset (ram.read offset .word ||| bits) .word).read offset .word =
      if offset.toNat < ram.size then ram.read offset .word ||| bits
      else ram.read offset .word := by
  refine Word.eq_of_bytes fun index inside => ?_
  rw [byte_read _ _ inside, byte_write_or _ _ low]
  by_cases within : offset.toNat < ram.size
  · rw [if_pos within, Word.byte_or, byte_read _ _ inside]
    by_cases first : index = 0
    · subst first
      rw [Nat.add_zero, if_pos ⟨rfl, within⟩]
    · rw [if_neg (by omega), low _ (by omega)]
      exact BitVec.or_zero.symm
  · rw [if_neg within, byte_read _ _ inside, if_neg (by omega)]

end Ram

namespace Bus

variable {bus : Bus} {address : Word} {region : Region} {ram : Ram}

/-! ## Accesses to memories -/

/-- A read of a memory gives its bytes and changes nothing. -/
theorem read_ram (isRam : bus.device? region.device = some (.ram ram)) (offset : Word)
    (width : Width) : bus.read region offset width = (ram.read offset width, bus) := by
  have same : bus.devices.setIfInBounds region.device (.ram ram) = bus.devices := by
    refine Array.ext_getElem? fun number => ?_
    rw [Array.getElem?_setIfInBounds]
    by_cases here : region.device = number
    · subst here
      rw [if_pos rfl]
      unfold device? at isRam
      obtain ⟨inside, -⟩ := Array.getElem?_eq_some_iff.1 isRam
      rw [if_pos inside, isRam]
    · rw [if_neg here]
  unfold read
  rw [isRam]
  dsimp only [Device.read, Device.kind, record]
  rw [same]

theorem device?_modifyDevice (bus : Bus) (number other : Nat) (change : Device → Device) :
    (bus.modifyDevice number change).device? other =
      if number = other then (bus.device? other).map change else bus.device? other :=
  Array.getElem?_modify ..

theorem device?_record (bus : Bus) (kind : DeviceKind) (access : DeviceAccess) (number : Nat) :
    (bus.record kind access).device? number = bus.device? number := by
  cases kind <;> rfl

/-- A store reaches no device but that of the region it lies in. -/
theorem device?_store_of_ne {region : Region} (found : bus.findRegion address = some region)
    {number : Nat} (other : region.device ≠ number) (value : Word) (width : Width) :
    (bus.store address value width).device? number = bus.device? number := by
  have written : (bus.write region (region.range.offsetOf address) value width).device? number =
      bus.device? number := by
    unfold write
    split
    · rw [device?_record, device?_modifyDevice, if_neg other]
    · rfl
  unfold store
  rw [found]
  dsimp only
  split
  · unfold markDirty
    rw [device?_modifyDevice, if_neg other, written]
  · exact written

/-- What a store to main memory does: it writes the bytes and flags the page. -/
structure Stored (bus : Bus) (region : Region) (offset value : Word) (width : Width) (ram : Ram)
    (after : Bus) : Prop where
  ranges : after.ranges = bus.ranges
  accesses : after.accesses = bus.accesses
  written : after.device? region.device =
    some (.ram ((ram.write offset value width).markDirty offset))
  others : ∀ number, region.device ≠ number → after.device? number = bus.device? number

theorem store_ram (found : bus.findRegion address = some region)
    (isRam : bus.device? region.device = some (.ram ram)) (value : Word) (width : Width) :
    bus.Stored region (region.range.offsetOf address) value width ram
      (bus.store address value width) := by
  unfold store
  rw [found]
  dsimp only
  rw [if_pos ((findRegion_eq_some_iff.1 found).1.isMemory isRam)]
  have opened : bus.write region (region.range.offsetOf address) value width =
      bus.modifyDevice region.device
        fun device => device.write (region.range.offsetOf address) value width := by
    unfold write
    rw [isRam]
    rfl
  rw [opened]
  refine ⟨rfl, rfl, ?_, fun number other => ?_⟩
  · unfold markDirty
    rw [device?_modifyDevice, if_pos rfl, device?_modifyDevice, if_pos rfl, isRam]
    rfl
  · unfold markDirty
    rw [device?_modifyDevice, if_neg other, device?_modifyDevice, if_neg other]

/-! ## Words -/

/-- The word at an address. -/
def word (bus : Bus) (address : Word) : Word := (bus.load address .word).1

theorem InMemory.backed (inside : bus.InMemory address) :
    ∃ region ram, bus.findRegion address = some region ∧ region.isMemory = true ∧
      bus.device? region.device = some (.ram ram) := by
  obtain ⟨region, found, memory⟩ := inside
  obtain ⟨ram, isRam⟩ := (findRegion_eq_some_iff.1 found).1.backed memory
  exact ⟨region, ram, found, memory, isRam⟩

/-- A word of main memory is read without any effect. -/
theorem load_of_inMemory (inside : bus.InMemory address) (width : Width) :
    (bus.load address width).2 = bus := by
  obtain ⟨region, ram, found, -, isRam⟩ := inside.backed
  unfold load
  rw [found]
  exact congrArg Prod.snd (read_ram isRam _ width)

theorem word_of_ram (found : bus.findRegion address = some region)
    (isRam : bus.device? region.device = some (.ram ram)) :
    bus.word address = ram.read (region.range.offsetOf address) .word := by
  unfold word load
  rw [found]
  exact congrArg Prod.fst (read_ram isRam _ .word)

theorem offsetOf_toNat {range : AddressRange} {address : Word}
    (contains : range.contains address = true) :
    (range.offsetOf address).toNat = address.toNat - range.first.toNat :=
  BitVec.toNat_sub_of_le (AddressRange.contains_iff.1 contains).1

/-- Aligned words at different addresses lie in different devices or apart in one. -/
theorem Sound.apart (sound : bus.Sound) {place : Word} {other : Region}
    (found : bus.findRegion address = some region) (foundOther : bus.findRegion place = some other)
    (aligned : Width.word.Aligned address) (alignedOther : Width.word.Aligned place)
    (different : place ≠ address) (same : other.device = region.device) :
    (other.range.offsetOf place).toNat + 4 ≤ (region.range.offsetOf address).toNat ∨
      (region.range.offsetOf address).toNat + 4 ≤ (other.range.offsetOf place).toNat := by
  obtain ⟨⟨member, -⟩, contains⟩ := findRegion_eq_some_iff.1 found
  obtain ⟨⟨memberOther, -⟩, containsOther⟩ := findRegion_eq_some_iff.1 foundOther
  have range : other.range = region.range :=
    congrArg Prod.fst (sound.distinct _ memberOther _ member same)
  rw [range] at containsOther ⊢
  rw [offsetOf_toNat contains, offsetOf_toNat containsOther]
  obtain ⟨start, -⟩ := AddressRange.contains_iff.1 contains
  obtain ⟨startOther, -⟩ := AddressRange.contains_iff.1 containsOther
  have apart : place.toNat ≠ address.toNat := fun equal => different (BitVec.eq_of_toNat_eq equal)
  change address.toNat % 4 = 0 at aligned
  change place.toNat % 4 = 0 at alignedOther
  rw [BitVec.le_def] at start startOther
  omega

/-- A store to main memory leaves the other aligned words of main memory alone. -/
theorem word_store_of_ne (sound : bus.Sound) {place value : Word} (inside : bus.InMemory address)
    (insidePlace : bus.InMemory place) (aligned : Width.word.Aligned address)
    (alignedPlace : Width.word.Aligned place) (different : place ≠ address) :
    (bus.store place value .word).word address = bus.word address := by
  obtain ⟨region, ram, found, -, isRam⟩ := inside.backed
  obtain ⟨other, otherRam, foundOther, -, isOtherRam⟩ := insidePlace.backed
  have stored := store_ram foundOther isOtherRam value .word
  have foundAfter := (bus.findRegion_store place value .word address).trans found
  rw [word_of_ram found isRam]
  by_cases same : other.device = region.device
  · have apart := sound.apart found foundOther aligned alignedPlace different same
    have written := stored.written
    rw [same, isRam] at isOtherRam
    cases isOtherRam
    rw [same] at written
    rw [word_of_ram foundAfter written, Ram.read_markDirty]
    exact Ram.read_write_of_apart _ apart
  · rw [word_of_ram foundAfter ((stored.others _ same).trans isRam)]

/-- What is read back after bits of the low byte of a word were set, if that byte is not zero: where
the memory ends, nothing but zeros can be read. -/
theorem word_store_or {bits : Word} (inside : bus.InMemory address)
    (low : ∀ index, 0 < index → Word.byte bits index = 0)
    (present : Word.byte (bus.word address) 0 ≠ 0) :
    (bus.store address (bus.word address ||| bits) .word).word address =
      bus.word address ||| bits := by
  obtain ⟨region, ram, found, -, isRam⟩ := inside.backed
  have stored := store_ram found isRam (bus.word address ||| bits) .word
  have foundAfter :=
    (bus.findRegion_store address (bus.word address ||| bits) .word address).trans found
  have isWord := word_of_ram found isRam
  have within : (region.range.offsetOf address).toNat < ram.size := by
    refine Nat.lt_of_not_le fun beyond => present ?_
    rw [isWord, Ram.byte_read _ _ (by decide)]
    exact Ram.byte_of_size_le ram beyond
  rw [word_of_ram foundAfter stored.written, Ram.read_markDirty, isWord, Ram.read_write_or _ _ low,
    if_pos within]

/-- The words of main memory stay when a device is attached. -/
theorem word_attach {after : Bus} (inside : bus.InMemory address) {range : AddressRange}
    {device : Device} {number : Nat} (attached : bus.attach range device = .ok (number, after)) :
    after.word address = bus.word address := by
  obtain ⟨region, ram, found, -, isRam⟩ := inside.backed
  obtain ⟨has, contains⟩ := findRegion_eq_some_iff.1 found
  have foundAfter := findRegion_eq_some_iff.2 ⟨has.attach attached, contains⟩
  obtain ⟨-, devices, -⟩ := attach_eq_ok attached
  rw [word_of_ram found isRam, word_of_ram foundAfter]
  exact (device?_push devices (lt_size_of_device? isRam)).trans isRam

end Bus

end Rv32
