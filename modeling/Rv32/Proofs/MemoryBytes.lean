import Rv32.Proofs.Mailboxes
import Rv32.Proofs.MemoryWords

/-!
# Memory byte by byte

To those who store and load, main memory is an array of bytes: a load gives for each of its bytes
the one that was stored there last, by whatever store, however wide and at whatever alignment. A
store changes the bytes that it names and no others, of no device (`Bus.memory_is_bytes`). What a
peripheral makes of a store is its own affair, but it sees those to its own range only.

That holds for accesses that stay inside the range they start in. The device attached there gets the
whole access, so a byte beyond the end of its range is not looked for in the range behind it.
-/

namespace Rv32

/-! ## Accesses inside a range -/

/-- All bytes of an access lie in the range. -/
def AddressRange.Spans (range : AddressRange) (address : Word) (width : Width) : Prop :=
  range.first.toNat ≤ address.toNat ∧ address.toNat + width.bytes ≤ range.last.toNat + 1

instance (range : AddressRange) (address : Word) (width : Width) :
    Decidable (range.Spans address width) :=
  inferInstanceAs (Decidable (_ ∧ _))

theorem AddressRange.Spans.contains {range : AddressRange} {address : Word} {width : Width}
    (spans : range.Spans address width) : range.contains address = true := by
  obtain ⟨above, below⟩ := spans
  have positive := width.bytes_pos
  refine AddressRange.contains_iff.2 ⟨BitVec.le_def.2 above, BitVec.le_def.2 ?_⟩
  omega

theorem AddressRange.size_eq (range : AddressRange) :
    range.size = range.last.toNat - range.first.toNat + 1 :=
  congrArg (· + 1) (BitVec.toNat_sub_of_le range.first_le_last)

/-- The address of each place in a range. -/
theorem AddressRange.contains_ofNat {range : AddressRange} {place : Nat}
    (above : range.first.toNat ≤ place) (below : place ≤ range.last.toNat) :
    range.contains (BitVec.ofNat 32 place) = true := by
  have lastBelow := range.last.isLt
  have same : (BitVec.ofNat 32 place).toNat = place := Nat.mod_eq_of_lt (by omega)
  refine AddressRange.contains_iff.2 ⟨BitVec.le_def.2 ?_, BitVec.le_def.2 ?_⟩
  · rw [same]
    exact above
  · rw [same]
    exact below

/-- A write of the low bytes of a value to an address. -/
structure Store where
  address : Word
  value : Word
  width : Width
deriving DecidableEq, Repr

namespace Store

/-- Whether the byte at an address is one of those that are written. -/
def Covers (store : Store) (place : Nat) : Prop :=
  store.address.toNat ≤ place ∧ place < store.address.toNat + store.width.bytes

instance (store : Store) (place : Nat) : Decidable (store.Covers place) :=
  inferInstanceAs (Decidable (_ ∧ _))

/-- The byte that is written to an address, if it is one of those that are. -/
def byteAt (store : Store) (place : Nat) : Byte :=
  Word.byte store.value (place - store.address.toNat)

/-- The byte that was stored at an address last. -/
def last? (stores : List Store) (place : Nat) : Option Byte :=
  (stores.reverse.find? fun store => store.Covers place).map fun store => store.byteAt place

theorem last?_cons (store : Store) (rest : List Store) (place : Nat) (initial : Byte) :
    (last? (store :: rest) place).getD initial =
      (last? rest place).getD (if store.Covers place then store.byteAt place else initial) := by
  unfold last?
  rw [List.reverse_cons, List.find?_append]
  cases rest.reverse.find? fun store => store.Covers place with
  | some later => rfl
  | none =>
      by_cases covers : store.Covers place
      · simp [covers]
      · simp [covers]

end Store

/-! ## What devices hold -/

namespace Device

/-- The byte that a device holds, as a read of it gives. What a peripheral answers need not have been
written to it byte by byte, so it holds none. -/
def byteAt (device : Device) (offset : Word) : Byte :=
  match device with
  | ram _ | htif _ => (device.read offset .byte).1.setWidth 8
  | peripheral _ => 0

theorem byteAt_ram (ram : Ram) (offset : Word) :
    (Device.ram ram).byteAt offset = ram.byte offset.toNat := by
  have low (word : Word) : word.setWidth 8 = Word.byte word 0 :=
    BitVec.setWidth_eq_extractLsb' (by decide)
  unfold byteAt read
  dsimp only
  unfold Ram.read
  rw [low, Word.byte_ofBytes _ (by decide)]
  exact if_pos (by decide)

/-- A byte that a write does not name stays. -/
theorem byteAt_write_outside (device : Device) {offset other : Word} (value : Word) {width : Width}
    (outside : ¬ (offset.toNat ≤ other.toNat ∧ other.toNat < offset.toNat + width.bytes)) :
    (device.write offset value width).byteAt other = device.byteAt other := by
  cases device with
  | ram ram =>
      have apart : ¬ (offset.toNat ≤ other.toNat ∧ other.toNat < offset.toNat + width.bytes ∧
          other.toNat < ram.size) := fun named => outside ⟨named.1, named.2.1⟩
      unfold write
      rw [byteAt_ram, byteAt_ram, Ram.byte_write, if_neg apart]
  | htif boxes =>
      unfold write byteAt read
      dsimp only
      rw [Htif.setWidth_read_byte, Htif.setWidth_read_byte,
        boxes.byteAt_write_outside value outside]
  | peripheral other => rfl

theorem byteAt_markDirty (device : Device) (offset other : Word) :
    (device.markDirty offset).byteAt other = device.byteAt other := by
  cases device with
  | ram ram =>
      unfold markDirty
      rw [byteAt_ram, byteAt_ram, Ram.byte_markDirty]
  | htif boxes => rfl
  | peripheral other => rfl

/-- A device that was not accessed yet. A peripheral can begin with any answers. -/
inductive Fresh : Device → Prop where
  | ram (size : Nat) : Fresh (.ram (.zeros size))
  | htif : Fresh (.htif .empty)
  | peripheral (other : Peripheral) : Fresh (.peripheral other)

end Device

namespace Bus

/-- The bus was built by attaching devices that were not accessed yet. -/
inductive Assembled : Bus → Prop where
  | empty : Assembled .empty
  | attach {bus after : Bus} {range : AddressRange} {device : Device} {number : Nat} :
    bus.Assembled → device.Fresh → bus.attach range device = .ok (number, after) → after.Assembled

theorem Assembled.sound {bus : Bus} (assembled : bus.Assembled) : bus.Sound := by
  induction assembled with
  | empty => exact .empty
  | attach _ _ attached ih => exact ih.attach attached

theorem Assembled.fresh {bus : Bus} (assembled : bus.Assembled) {number : Nat} {device : Device}
    (isDevice : bus.device? number = some device) : device.Fresh := by
  induction assembled generalizing number device with
  | empty => cases isDevice
  | @attach bus after range added _ _ isFresh attached ih =>
      obtain ⟨-, devices, -⟩ := attach_eq_ok attached
      by_cases old : number < bus.devices.size
      · exact ih ((device?_push devices old).symm.trans isDevice)
      · unfold device? at isDevice
        rw [devices, Array.getElem?_push] at isDevice
        split at isDevice
        · cases isDevice
          exact isFresh
        · exact absurd (lt_size_of_device? isDevice) old

/-- A memory that was not accessed yet holds zeros. -/
theorem Assembled.byte_eq_zero {bus : Bus} (assembled : bus.Assembled) {number : Nat} {ram : Ram}
    (isRam : bus.device? number = some (.ram ram)) (index : Nat) : ram.byte index = 0 := by
  cases assembled.fresh isRam with
  | ram size => exact Ram.byte_zeros size index

/-! ## Stores -/

variable {bus : Bus} {number : Nat} {range : AddressRange} {ram : Ram} {store : Store}
  {stores : List Store}

/-- The bus after a store. -/
def apply (bus : Bus) (store : Store) : Bus := bus.store store.address store.value store.width

/-- The bus after a sequence of stores. -/
def applyAll (bus : Bus) (stores : List Store) : Bus := stores.foldl apply bus

/-- All bytes of a store lie in one mapped range. -/
def Maps (bus : Bus) (store : Store) : Prop :=
  ∃ entry ∈ bus.ranges.entries, entry.1.Spans store.address store.width

/-- The device of the range that a store lies in takes it. -/
theorem device?_apply {region : Region} (found : bus.findRegion store.address = some region)
    {device : Device} (isDevice : bus.device? region.device = some device) :
    ∃ after, (bus.apply store).device? region.device = some after ∧
      ∀ offset, after.byteAt offset =
        (device.write (region.range.offsetOf store.address) store.value store.width).byteAt
          offset := by
  let written := device.write (region.range.offsetOf store.address) store.value store.width
  have isWritten : (bus.write region (region.range.offsetOf store.address) store.value
      store.width).device? region.device = some written := by
    unfold write
    rw [isDevice]
    dsimp only [Option.map_some]
    rw [device?_record, device?_modifyDevice, if_pos rfl, isDevice]
    rfl
  unfold apply Bus.store
  rw [found]
  dsimp only
  split
  · refine ⟨written.markDirty (region.range.offsetOf store.address), ?_,
      fun offset => written.byteAt_markDirty _ offset⟩
    unfold markDirty
    rw [device?_modifyDevice, if_pos rfl, isWritten]
    rfl
  · exact ⟨written, isWritten, fun _ => rfl⟩

/-- The region of the range in which all bytes of a store lie. -/
theorem findRegion_of_spans (sound : bus.Sound) (attached : (range, number) ∈ bus.ranges.entries)
    (spans : range.Spans store.address store.width) :
    ∃ device, bus.device? number = some device ∧
      bus.findRegion store.address = some ⟨number, range, device.kind⟩ := by
  obtain ⟨device, isDevice⟩ := Option.isSome_iff_exists.1 (sound.attached _ attached)
  refine ⟨device, isDevice, findRegion_eq_some_iff.2 ⟨⟨attached, ?_⟩, spans.contains⟩⟩
  rw [isDevice]
  rfl

/-- A store changes no device but the one of the range that it lies in, and of that only the bytes
that it names. -/
theorem byteAt_apply (sound : bus.Sound) (maps : bus.Maps store) {device : Device}
    (isDevice : bus.device? number = some device) :
    ∃ after, (bus.apply store).device? number = some after ∧
      (after ≠ device → ∃ range, (range, number) ∈ bus.ranges.entries ∧
        range.Spans store.address store.width) ∧
      ∀ offset, after.byteAt offset ≠ device.byteAt offset →
        ∃ range, (range, number) ∈ bus.ranges.entries ∧
          range.Spans store.address store.width ∧
          store.Covers (range.first.toNat + offset.toNat) := by
  obtain ⟨⟨range, other⟩, attached, spans⟩ := maps
  obtain ⟨routed, isRouted, found⟩ := findRegion_of_spans sound attached spans
  by_cases same : other = number
  · subst same
    obtain rfl := Option.some.inj (isRouted.symm.trans isDevice)
    obtain ⟨after, isAfter, bytes⟩ := device?_apply found isRouted
    refine ⟨after, isAfter, fun _ => ⟨range, attached, spans⟩,
      fun offset changed => ⟨range, attached, spans, ?_⟩⟩
    have place := offsetOf_toNat spans.contains
    have above := spans.1
    refine Decidable.byContradiction fun notCovered => changed ?_
    refine (bytes offset).trans (routed.byteAt_write_outside store.value fun named => ?_)
    unfold Store.Covers at notCovered
    dsimp only at *
    omega
  · exact ⟨device, (device?_store_of_ne found same ..).trans isDevice,
      fun changed => absurd rfl changed, fun offset changed => absurd rfl changed⟩

/-- A store that names a byte of a range lies in this range. -/
theorem eq_of_covers {other : AddressRange} {routed : Nat}
    (attached : (range, number) ∈ bus.ranges.entries)
    (attachedOther : (other, routed) ∈ bus.ranges.entries)
    (spans : other.Spans store.address store.width) {index : Nat} (inside : index < range.size)
    (covers : store.Covers (range.first.toNat + index)) : routed = number := by
  have ordered := BitVec.le_def.1 range.first_le_last
  rw [range.size_eq] at inside
  unfold AddressRange.Spans at spans
  unfold Store.Covers at covers
  have inRange : range.contains (BitVec.ofNat 32 (range.first.toNat + index)) = true :=
    AddressRange.contains_ofNat (by omega) (by omega)
  have inOther : other.contains (BitVec.ofNat 32 (range.first.toNat + index)) = true :=
    AddressRange.contains_ofNat (by omega) (by omega)
  exact congrArg Prod.snd (AddressMap.eq_of_contains attachedOther attached inOther inRange)

/-- A memory that is large enough for its range takes every store byte by byte. -/
theorem ram_apply (sound : bus.Sound) (maps : bus.Maps store)
    (attached : (range, number) ∈ bus.ranges.entries) (large : range.size ≤ ram.size)
    (isRam : bus.device? number = some (.ram ram)) :
    ∃ after, (bus.apply store).device? number = some (.ram after) ∧ after.size = ram.size ∧
      ∀ index, index < range.size → after.byte index =
        if store.Covers (range.first.toNat + index) then store.byteAt (range.first.toNat + index)
        else ram.byte index := by
  obtain ⟨⟨other, routed⟩, attachedOther, spans⟩ := maps
  obtain ⟨device, isDevice, found⟩ := findRegion_of_spans sound attachedOther spans
  by_cases same : routed = number
  · subst same
    obtain rfl : other = range :=
      congrArg Prod.fst (sound.distinct _ attachedOther _ attached rfl)
    obtain rfl := Option.some.inj (isRam.symm.trans isDevice)
    have stored := store_ram found isRam store.value store.width
    refine ⟨_, stored.written, Ram.size_write .., fun index inside => ?_⟩
    have place : (other.offsetOf store.address).toNat = store.address.toNat - other.first.toNat :=
      offsetOf_toNat spans.contains
    have above : other.first.toNat ≤ store.address.toNat := spans.1
    rw [Ram.byte_markDirty, Ram.byte_write]
    dsimp only
    rw [place]
    by_cases covers : store.Covers (other.first.toNat + index)
    · have bounds := covers
      unfold Store.Covers at bounds
      have sameByte : index - (store.address.toNat - other.first.toNat) =
          other.first.toNat + index - store.address.toNat := by omega
      rw [if_pos ⟨by omega, by omega, by omega⟩, if_pos covers, sameByte]
      rfl
    · have bounds := covers
      unfold Store.Covers at bounds
      rw [if_neg (by omega), if_neg covers]
  · refine ⟨ram, (device?_store_of_ne found same ..).trans isRam, rfl, fun index inside => ?_⟩
    exact (if_neg fun covers => same (eq_of_covers attached attachedOther spans inside covers)).symm

theorem sameMap_apply (bus : Bus) (store : Store) : bus.SameMap (bus.apply store) :=
  bus.sameMap_store ..

theorem sameMap_applyAll (bus : Bus) (stores : List Store) :
    bus.SameMap (bus.applyAll stores) := by
  induction stores generalizing bus with
  | nil => exact .refl bus
  | cons store rest ih => exact (bus.sameMap_apply store).trans (ih _)

theorem Maps.of_sameMap {after : Bus} (maps : bus.Maps store) (same : bus.SameMap after) :
    after.Maps store := by
  unfold Maps
  rw [same.ranges]
  exact maps

/-- After a sequence of stores a memory holds what was stored last, or what it held before. -/
theorem ram_applyAll (sound : bus.Sound) (maps : ∀ store ∈ stores, bus.Maps store)
    (attached : (range, number) ∈ bus.ranges.entries) (large : range.size ≤ ram.size)
    (isRam : bus.device? number = some (.ram ram)) :
    ∃ after, (bus.applyAll stores).device? number = some (.ram after) ∧
      ∀ index, index < range.size →
        after.byte index =
          (Store.last? stores (range.first.toNat + index)).getD (ram.byte index) := by
  induction stores generalizing bus ram with
  | nil => exact ⟨ram, isRam, fun _ _ => rfl⟩
  | cons store rest ih =>
      obtain ⟨mapsFirst, mapsRest⟩ := List.forall_mem_cons.1 maps
      have same := bus.sameMap_apply store
      obtain ⟨next, isNext, size, bytes⟩ := ram_apply sound mapsFirst attached large isRam
      rw [← same.ranges] at attached
      rw [← size] at large
      obtain ⟨after, isAfter, last⟩ := ih (same.sound sound)
        (fun later member => (mapsRest later member).of_sameMap same) attached large isNext
      refine ⟨after, isAfter, fun index inside => ?_⟩
      rw [last index inside, bytes index inside, Store.last?_cons]

theorem load_of_ram {address : Word} {width : Width}
    (attached : (range, number) ∈ bus.ranges.entries) (spans : range.Spans address width)
    (isRam : bus.device? number = some (.ram ram)) :
    (bus.load address width).1 = ram.read (range.offsetOf address) width := by
  have found : bus.findRegion address = some ⟨number, range, .memory⟩ := by
    refine findRegion_eq_some_iff.2 ⟨⟨attached, ?_⟩, spans.contains⟩
    rw [isRam]
    rfl
  unfold load
  rw [found]
  exact congrArg Prod.fst (read_ram isRam _ width)

/-- Main memory is an array of bytes, the least significant one of a word first. On a bus of devices
that were not accessed before, whatever was stored inside the mapped ranges, a load inside the range
of a memory gives in each of its bytes the one that was stored there last, and zero where none was.
No store changes a device but the one of the range that it lies in, or a byte, of any device, but
those that it names. -/
theorem memory_is_bytes (assembled : bus.Assembled)
    (attached : (range, number) ∈ bus.ranges.entries)
    (isRam : bus.device? number = some (.ram ram)) (large : range.size ≤ ram.size)
    (maps : ∀ store ∈ stores, bus.Maps store) :
    (∀ address width, range.Spans address width →
      ((bus.applyAll stores).load address width).1 =
        Word.ofBytes fun index =>
          if index < width.bytes then (Store.last? stores (address.toNat + index)).getD 0 else 0) ∧
    ∀ earlier store later, stores = earlier ++ store :: later →
      ∀ other device, (bus.applyAll earlier).device? other = some device →
        ∃ after, (bus.applyAll (earlier ++ [store])).device? other = some after ∧
          (after ≠ device → ∃ place, (place, other) ∈ bus.ranges.entries ∧
            place.Spans store.address store.width) ∧
          ∀ offset, after.byteAt offset ≠ device.byteAt offset →
            ∃ place, (place, other) ∈ bus.ranges.entries ∧
              place.Spans store.address store.width ∧
              store.Covers (place.first.toNat + offset.toNat) := by
  have sound := assembled.sound
  constructor
  · intro address width spans
    have same := bus.sameMap_applyAll stores
    obtain ⟨after, isAfter, bytes⟩ := ram_applyAll sound maps attached large isRam
    have attachedAfter : (range, number) ∈ (bus.applyAll stores).ranges.entries := by
      rw [same.ranges]
      exact attached
    rw [load_of_ram attachedAfter spans isAfter]
    unfold Ram.read
    refine congrArg Word.ofBytes (funext fun index => ?_)
    by_cases inside : index < width.bytes
    · have place := offsetOf_toNat spans.contains
      have inRange : (range.offsetOf address).toNat + index < range.size := by
        rw [range.size_eq]
        unfold AddressRange.Spans at spans
        omega
      have moved : range.first.toNat + ((range.offsetOf address).toNat + index) =
          address.toNat + index := by
        have above := spans.1
        omega
      rw [if_pos inside, if_pos inside, bytes _ inRange, moved, assembled.byte_eq_zero isRam]
    · rw [if_neg inside, if_neg inside]
  · rintro earlier store later rfl other device isDevice
    have same := bus.sameMap_applyAll earlier
    have mapsStore : bus.Maps store := maps store (List.mem_append_right _ List.mem_cons_self)
    obtain ⟨after, isAfter, changed⟩ :=
      byteAt_apply (same.sound sound) (mapsStore.of_sameMap same) isDevice
    rw [same.ranges] at changed
    refine ⟨after, ?_, changed⟩
    unfold applyAll at isAfter ⊢
    rw [List.foldl_append]
    exact isAfter

/-- Eight bytes of memory. -/
def smallMemory : Bus where
  ranges := ⟨[(⟨0x1000, 0x1007, by decide⟩, 0)], by decide⟩
  devices := #[.ram (.zeros 8)]
  accesses := []

/-- Eight bytes of memory with the mailboxes right behind them. -/
def memoryAndMailboxes : Bus where
  ranges := ⟨[(⟨0x1000, 0x1007, by decide⟩, 0), (⟨0x1008, 0x104F, by decide⟩, 1)], by decide⟩
  devices := #[.ram (.zeros 8), .htif .empty]
  accesses := []

theorem assembled_memoryAndMailboxes : memoryAndMailboxes.Assembled := by
  have memory : empty.attach ⟨0x1000, 0x1007, by decide⟩ (.ram (.zeros 8)) =
      .ok (0, smallMemory) := rfl
  have mailboxes : smallMemory.attach ⟨0x1008, 0x104F, by decide⟩ (.htif .empty) =
      .ok (1, memoryAndMailboxes) := rfl
  exact .attach (.attach .empty (.ram 8) memory) .htif mailboxes

/-- Stores of all widths into the memory, over one another, and one into a mailbox. -/
def mixedStores : List Store :=
  [⟨0x1001, 0x44332211, .word⟩, ⟨0x1003, 0xAA, .byte⟩, ⟨0x1008, 1, .word⟩, ⟨0x1004, 0xBBCC, .half⟩]

theorem mixedStores_load :
    ((memoryAndMailboxes.applyAll mixedStores).load 0x1002 .word).1 = 0xBBCCAA22 := by
  have large : (⟨0x1000, 0x1007, by decide⟩ : AddressRange).size ≤ (Ram.zeros 8).size :=
    Nat.le_of_eq (Ram.size_zeros 8).symm
  have maps : ∀ store ∈ mixedStores, memoryAndMailboxes.Maps store := by
    unfold Maps
    decide
  obtain ⟨loads, -⟩ :=
    memory_is_bytes assembled_memoryAndMailboxes List.mem_cons_self rfl large maps
  rw [loads 0x1002 .word ⟨by decide, by decide⟩]
  decide

end Bus

end Rv32
