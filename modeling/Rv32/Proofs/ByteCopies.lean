import Mathlib.Algebra.Group.Nat.Defs
import Rv32.Proofs.Attachment
import Rv32.Proofs.DirtyPages

/-!
# Copies of bytes into memory

A program is put into memory byte by byte, by stores that are routed one by one, and memory is read
back in the same way. `Bus.place?` says where the byte at an address is kept. No two addresses share
a place, so as long as a copy does not come round to where it started, it leaves in each place the
one byte that was meant for it (`Bus.copy_exact`).
-/

namespace Rv32

namespace Word

theorem byte_setWidth (value : Byte) : byte (value.setWidth 32) 0 = value := by
  unfold byte
  rw [← BitVec.setWidth_eq_extractLsb' (by decide)]
  exact BitVec.setWidth_setWidth_of_le value (by decide)

theorem add_ofNat_zero (address : Word) : address + BitVec.ofNat 32 0 = address :=
  BitVec.add_zero _

theorem add_ofNat_succ (address : Word) (distance : Nat) :
    address + BitVec.ofNat 32 (distance + 1) = address + 1 + BitVec.ofNat 32 distance := by
  rw [BitVec.ofNat_add, BitVec.add_comm (BitVec.ofNat 32 distance), ← BitVec.add_assoc]
  rfl

/-- The way round all addresses takes `2 ^ 32` steps. -/
theorem add_ofNat_ne (address : Word) {distance : Nat} (positive : 0 < distance)
    (below : distance < 2 ^ 32) : address + BitVec.ofNat 32 distance ≠ address := by
  intro same
  have numbers := congrArg BitVec.toNat same
  have inside := address.isLt
  rw [BitVec.toNat_add, BitVec.toNat_ofNat] at numbers
  omega

end Word

namespace Bus

variable {bus : Bus} {address other : Word} {number index : Nat} {place : Nat × Nat} {ram : Ram}

/-! ## Places -/

/-- Where the byte at an address is kept: the number of its device and its offset there. -/
def place? (bus : Bus) (address : Word) : Option (Nat × Nat) :=
  (bus.findRegion address).map fun region =>
    (region.device, (region.range.offsetOf address).toNat)

theorem SameMap.place?_eq {after : Bus} (same : bus.SameMap after) (address : Word) :
    after.place? address = bus.place? address := by
  unfold place?
  rw [same.findRegion_eq]

theorem place?_eq_some (isPlace : bus.place? address = some (number, index)) :
    ∃ region, bus.findRegion address = some region ∧ region.device = number ∧
      (region.range.offsetOf address).toNat = index ∧
      address.toNat = region.range.first.toNat + index := by
  obtain ⟨region, found, same⟩ := Option.map_eq_some_iff.1 isPlace
  cases same
  obtain ⟨-, contains⟩ := findRegion_eq_some_iff.1 found
  have above := BitVec.le_def.1 (AddressRange.contains_iff.1 contains).1
  have offset := offsetOf_toNat contains
  exact ⟨region, found, rfl, rfl, by omega⟩

/-- No two addresses share a place. -/
theorem Sound.place?_inj (sound : bus.Sound) (isPlace : bus.place? address = some place)
    (isOther : bus.place? other = some place) : address = other := by
  obtain ⟨region, found, device, -, here⟩ := place?_eq_some isPlace
  obtain ⟨otherRegion, foundOther, otherDevice, -, there⟩ := place?_eq_some isOther
  obtain ⟨⟨member, -⟩, -⟩ := findRegion_eq_some_iff.1 found
  obtain ⟨⟨memberOther, -⟩, -⟩ := findRegion_eq_some_iff.1 foundOther
  have sameRange : region.range = otherRegion.range :=
    congrArg Prod.fst (sound.distinct _ member _ memberOther (device.trans otherDevice.symm))
  rw [sameRange] at here
  exact BitVec.eq_of_toNat_eq (here.trans there.symm)

/-! ## Buses with memories only -/

/-- Only memories are attached, none of them smaller than its range. -/
structure MemoryOnly (bus : Bus) : Prop where
  sound : bus.Sound
  large : ∀ entry ∈ bus.ranges.entries,
    ∃ ram, bus.device? entry.2 = some (.ram ram) ∧ entry.1.size ≤ ram.size

theorem MemoryOnly.empty : Bus.empty.MemoryOnly := ⟨.empty, nofun⟩

/-- A bus is one of memories only if nothing else was attached to it. -/
theorem MemoryOnly.attach (only : bus.MemoryOnly) {after : Bus} {range : AddressRange}
    (large : range.size ≤ ram.size) (attached : bus.attach range (.ram ram) = .ok (number, after)) :
    after.MemoryOnly := by
  refine ⟨only.sound.attach attached, fun entry member => ?_⟩
  rcases (mem_attach attached).1 member with rfl | old
  · exact ⟨ram, device?_attached attached, large⟩
  · obtain ⟨mapped, isMapped, fits⟩ := only.large entry old
    exact ⟨mapped, device?_attach attached isMapped, fits⟩

theorem MemoryOnly.backed (only : bus.MemoryOnly)
    (isPlace : bus.place? address = some (number, index)) :
    ∃ ram, bus.device? number = some (.ram ram) ∧ index < ram.size := by
  obtain ⟨region, found, rfl, -, here⟩ := place?_eq_some isPlace
  obtain ⟨⟨member, -⟩, contains⟩ := findRegion_eq_some_iff.1 found
  obtain ⟨ram, isRam, fits⟩ := only.large _ member
  refine ⟨ram, isRam, Nat.lt_of_lt_of_le ?_ fits⟩
  have size := region.range.size_eq
  have below := BitVec.le_def.1 (AddressRange.contains_iff.1 contains).2
  dsimp only at below ⊢
  omega

/-- A byte that has a place lies in main memory. -/
theorem MemoryOnly.inMemory (only : bus.MemoryOnly)
    (isPlace : bus.place? address = some (number, index)) : bus.InMemory address := by
  obtain ⟨ram, isRam, -⟩ := only.backed isPlace
  obtain ⟨region, found, rfl, -, -⟩ := place?_eq_some isPlace
  exact ⟨region, found, (findRegion_eq_some_iff.1 found).1.isMemory isRam⟩

/-! ## Reading -/

/-- What is read at an address. -/
def byteAt (bus : Bus) (address : Word) : Byte := (bus.load address .byte).1.setWidth 8

theorem byteAt_vacant (vacant : bus.place? address = none) : bus.byteAt address = 0 := by
  have nowhere : bus.findRegion address = none := Option.map_eq_none_iff.1 vacant
  unfold byteAt load
  rw [nowhere]
  rfl

theorem byteAt_of_place (isPlace : bus.place? address = some (number, index))
    (isRam : bus.device? number = some (.ram ram)) : bus.byteAt address = ram.byte index := by
  obtain ⟨region, found, rfl, rfl, -⟩ := place?_eq_some isPlace
  unfold byteAt load
  rw [found]
  dsimp only
  rw [read_ram isRam]
  exact Device.byteAt_ram ram _

theorem MemoryOnly.load_unchanged (only : bus.MemoryOnly) (address : Word) (width : Width) :
    (bus.load address width).2 = bus := by
  rcases isPlace : bus.place? address with _ | ⟨number, index⟩
  · have nowhere : bus.findRegion address = none := Option.map_eq_none_iff.1 isPlace
    unfold load
    rw [nowhere]
  · exact load_of_inMemory (only.inMemory isPlace) width

/-- Bytes are read at ascending addresses, and reading changes nothing. -/
theorem MemoryOnly.readBytes_eq (only : bus.MemoryOnly) (address : Word) (count : Nat) :
    bus.readBytes address count =
      ((List.range count).map fun i => bus.byteAt (address + BitVec.ofNat 32 i), bus) := by
  induction count generalizing address with
  | zero => rfl
  | succ count ih =>
      have opened : bus.readBytes address (count + 1) =
          (bus.byteAt address ::
              ((bus.load address .byte).2.readBytes (address + 1) count).1,
            ((bus.load address .byte).2.readBytes (address + 1) count).2) := rfl
      rw [opened, only.load_unchanged, ih, List.range_succ_eq_map, List.map_cons, List.map_map,
        Word.add_ofNat_zero]
      simp only [Function.comp_def, Nat.succ_eq_add_one, Word.add_ofNat_succ]

/-! ## Writing -/

/-- From one memory to the other a byte was put into the place of an address, if it has one in this
memory, and the page of this place was flagged. -/
structure BytePut (bus : Bus) (address : Word) (value : Byte) (number : Nat)
    (before after : Ram) : Prop where
  size : after.size = before.size
  byte : ∀ index, after.byte index =
    if bus.place? address = some (number, index) then value else before.byte index
  dirty : ∀ page, page ∈ after.dirtyPages ↔ page ∈ before.dirtyPages ∨
    ∃ index, bus.place? address = some (number, index) ∧ index / pageSize = page

theorem BytePut.elsewhere (apart : ∀ index, bus.place? address ≠ some (number, index))
    (value : Byte) (ram : Ram) : bus.BytePut address value number ram ram := by
  refine ⟨rfl, fun index => (if_neg (apart index)).symm, fun page => ?_⟩
  exact (or_iff_left fun ⟨index, isPlace, _⟩ => apart index isPlace).symm

/-- A store of a byte writes this byte and flags its page. -/
theorem BytePut.here {offset : Word} (isPlace : bus.place? address = some (number, offset.toNat))
    (inside : offset.toNat < ram.size) (value : Byte) :
    bus.BytePut address value number ram
      ((ram.write offset (value.setWidth 32) .byte).markDirty offset) where
  size := ram.size_write ..
  byte := by
    intro index
    have named : offset.toNat ≤ index ∧ index < offset.toNat + 1 ∧ index < ram.size ↔
        some (number, offset.toNat) = some (number, index) := by
      rw [Option.some.injEq, Prod.mk.injEq]
      omega
    rw [Ram.byte_markDirty, Ram.byte_write, isPlace]
    change (if offset.toNat ≤ index ∧ index < offset.toNat + 1 ∧ index < ram.size then _ else _) = _
    simp only [named]
    split
    · rename_i same
      cases same
      rw [Nat.sub_self, Word.byte_setWidth]
    · rfl
  dirty := by
    intro page
    have size : (ram.write offset (value.setWidth 32) .byte).size = ram.size := ram.size_write ..
    have isPage := Ram.page_lt (size ▸ inside)
    rw [Ram.mem_dirtyPages, Ram.mem_dirtyPages, Ram.isDirty_markDirty, Ram.isDirty_write,
      Bool.or_eq_true, decide_eq_true_iff, or_comm, isPlace]
    refine or_congr_right ⟨?_, ?_⟩
    · rintro ⟨rfl, -⟩
      exact ⟨_, rfl, rfl⟩
    · rintro ⟨index, same, rfl⟩
      cases same
      exact ⟨rfl, isPage⟩

theorem MemoryOnly.store_byte (only : bus.MemoryOnly) (address : Word) (value : Byte)
    (isRam : bus.device? number = some (.ram ram)) :
    ∃ after, (bus.store address (value.setWidth 32) .byte).device? number = some (.ram after) ∧
      bus.BytePut address value number ram after := by
  rcases isPlace : bus.place? address with _ | ⟨device, offset⟩
  · have nowhere : bus.findRegion address = none := Option.map_eq_none_iff.1 isPlace
    refine ⟨ram, ?_, .elsewhere (fun index => by rw [isPlace]; exact nofun) value ram⟩
    unfold store
    rw [nowhere]
    exact isRam
  · obtain ⟨region, found, rfl, rfl, -⟩ := place?_eq_some isPlace
    by_cases here : region.device = number
    · subst here
      obtain ⟨backing, isBacking, inside⟩ := only.backed isPlace
      cases isBacking.symm.trans isRam
      refine ⟨_, (store_ram found isRam (value.setWidth 32) .byte).written, ?_⟩
      exact .here isPlace inside value
    · have kept := device?_store_of_ne found here (value.setWidth 32) .byte
      refine ⟨ram, kept.trans isRam, .elsewhere (fun index same => here ?_) value ram⟩
      rw [isPlace] at same
      cases same
      rfl

/-- From one memory to the other bytes were put into the places of consecutive addresses, as far as
they have places in this memory, and the pages of these places were flagged. -/
structure Copied (bus : Bus) (address : Word) (data : List Byte) (number : Nat)
    (before after : Ram) : Prop where
  size : after.size = before.size
  written : ∀ i (inside : i < data.length) index,
    bus.place? (address + BitVec.ofNat 32 i) = some (number, index) → after.byte index = data[i]
  kept : ∀ index,
    (∀ i, i < data.length → bus.place? (address + BitVec.ofNat 32 i) ≠ some (number, index)) →
      after.byte index = before.byte index
  dirty : ∀ page, page ∈ after.dirtyPages ↔ page ∈ before.dirtyPages ∨
    ∃ i index, i < data.length ∧
      bus.place? (address + BitVec.ofNat 32 i) = some (number, index) ∧ index / pageSize = page

variable {value : Byte} {rest : List Byte} {before middle after : Ram}

theorem Copied.nil (bus : Bus) (address : Word) (number : Nat) (ram : Ram) :
    bus.Copied address [] number ram ram where
  size := rfl
  written := nofun
  kept := fun _ _ => rfl
  dirty := fun _ => (or_iff_left fun ⟨_, _, inside, _⟩ => Nat.not_lt_zero _ inside).symm

/-- The copy of the rest comes to the place of the first byte again only if it goes round all
addresses. -/
theorem Copied.cons (sound : bus.Sound) (fits : rest.length < 2 ^ 32)
    (put : bus.BytePut address value number before middle)
    (copied : bus.Copied (address + 1) rest number middle after) :
    bus.Copied address (value :: rest) number before after where
  size := copied.size.trans put.size
  written := by
    intro i inside index isPlace
    cases i with
    | zero =>
        rw [Word.add_ofNat_zero] at isPlace
        rw [copied.kept index, put.byte, if_pos isPlace]
        · rfl
        · intro later isLater again
          rw [← Word.add_ofNat_succ] at again
          have short : later + 1 < 2 ^ 32 := by omega
          exact Word.add_ofNat_ne address (Nat.succ_pos later) short
            (sound.place?_inj again isPlace)
    | succ later =>
        rw [Word.add_ofNat_succ] at isPlace
        exact copied.written later (Nat.lt_of_succ_lt_succ inside) index isPlace
  kept := by
    intro index untouched
    have first := untouched 0 (Nat.succ_pos _)
    rw [Word.add_ofNat_zero] at first
    rw [copied.kept index, put.byte, if_neg first]
    intro later inside
    rw [← Word.add_ofNat_succ]
    exact untouched (later + 1) (Nat.succ_lt_succ inside)
  dirty := by
    intro page
    rw [copied.dirty, put.dirty, or_assoc]
    refine or_congr_right ⟨?_, ?_⟩
    · rintro (⟨index, isPlace, onPage⟩ | ⟨later, index, inside, isPlace, onPage⟩)
      · rw [← Word.add_ofNat_zero address] at isPlace
        exact ⟨0, index, Nat.succ_pos _, isPlace, onPage⟩
      · rw [← Word.add_ofNat_succ] at isPlace
        exact ⟨later + 1, index, Nat.succ_lt_succ inside, isPlace, onPage⟩
    · rintro ⟨i, index, inside, isPlace, onPage⟩
      cases i with
      | zero =>
          rw [Word.add_ofNat_zero] at isPlace
          exact .inl ⟨index, isPlace, onPage⟩
      | succ later =>
          rw [Word.add_ofNat_succ] at isPlace
          exact .inr ⟨later, index, Nat.lt_of_succ_lt_succ inside, isPlace, onPage⟩

theorem Copied.of_sameMap {next : Bus} (same : bus.SameMap next) {data : List Byte}
    (copied : next.Copied address data number before after) :
    bus.Copied address data number before after where
  size := copied.size
  written := by
    intro i inside index isPlace
    rw [← same.place?_eq] at isPlace
    exact copied.written i inside index isPlace
  kept := by
    intro index untouched
    refine copied.kept index fun i inside => ?_
    rw [same.place?_eq]
    exact untouched i inside
  dirty := by
    simp only [← same.place?_eq]
    exact copied.dirty

theorem MemoryOnly.stored (only : bus.MemoryOnly) (address : Word) (value : Byte) :
    (bus.store address (value.setWidth 32) .byte).MemoryOnly := by
  have same := bus.sameMap_store address (value.setWidth 32) .byte
  refine ⟨same.sound only.sound, fun entry member => ?_⟩
  rw [same.ranges] at member
  obtain ⟨ram, isRam, fits⟩ := only.large entry member
  obtain ⟨after, isAfter, put⟩ := only.store_byte address value isRam
  exact ⟨after, isAfter, put.size ▸ fits⟩

/-- A copy that does not come round to where it started puts every byte into its place. -/
theorem MemoryOnly.copied (only : bus.MemoryOnly) (address : Word) {data : List Byte}
    (fits : data.length ≤ 2 ^ 32) (isRam : bus.device? number = some (.ram ram)) :
    ∃ after, (bus.writeBytes address data).device? number = some (.ram after) ∧
      bus.Copied address data number ram after := by
  induction data generalizing bus address ram with
  | nil => exact ⟨ram, isRam, .nil bus address number ram⟩
  | cons value rest ih =>
      obtain ⟨middle, isMiddle, put⟩ := only.store_byte address value isRam
      obtain ⟨after, isAfter, copied⟩ :=
        ih (only.stored address value) (address + 1) (Nat.le_of_succ_le fits) isMiddle
      have same := bus.sameMap_store address (value.setWidth 32) .byte
      exact ⟨after, isAfter, .cons only.sound fits put (copied.of_sameMap same)⟩

theorem MemoryOnly.writeBytes (only : bus.MemoryOnly) (address : Word) (data : List Byte) :
    (bus.writeBytes address data).MemoryOnly := by
  induction data generalizing bus address with
  | nil => exact only
  | cons value rest ih => exact ih (only.stored address value) (address + 1)

/-- Bytes that are copied to memory can be read back, and nothing else happens. On a bus of memories
that are at least as large as their ranges, let bytes be written from an address on, not more of
them than there are addresses. A read of as many bytes from there gives every byte that was written
to a mapped address and zero for the others. No memory changes but in the places of the mapped
addresses, and just the pages of these places become dirty. -/
theorem copy_exact (only : bus.MemoryOnly) (address : Word) {data : List Byte}
    (fits : data.length ≤ 2 ^ 32) :
    let after := bus.writeBytes address data
    after.readBytes address data.length =
        (data.mapIdx fun i byte =>
          if (bus.findRegion (address + BitVec.ofNat 32 i)).isSome then byte else 0, after) ∧
      bus.SameMap after ∧
      ∀ number before, bus.device? number = some (.ram before) →
        ∃ ram, after.device? number = some (.ram ram) ∧
          bus.Copied address data number before ram := by
  intro after
  have same : bus.SameMap after := bus.sameMap_writeBytes address data
  refine ⟨?_, same, fun number before isRam => only.copied address fits isRam⟩
  rw [(only.writeBytes address data).readBytes_eq]
  refine Prod.ext (List.ext_getElem (by simp) fun i inside _ => ?_) rfl
  have inData : i < data.length := by simpa using inside
  rw [List.getElem_map, List.getElem_range, List.getElem_mapIdx]
  rcases isPlace : bus.place? (address + BitVec.ofNat 32 i) with _ | ⟨number, index⟩
  · rw [Option.map_eq_none_iff.1 isPlace]
    exact byteAt_vacant ((same.place?_eq _).trans isPlace)
  · obtain ⟨before, isRam, -⟩ := only.backed isPlace
    obtain ⟨ram, isAfter, copied⟩ := only.copied address fits isRam
    obtain ⟨region, found, -⟩ := place?_eq_some isPlace
    rw [found, byteAt_of_place ((same.place?_eq _).trans isPlace) isAfter]
    exact copied.written i inData index isPlace

/-- Two bytes of memory where the addresses end. -/
def lastMemory : Bus where
  ranges := ⟨[(⟨0xFFFFFFFE, 0xFFFFFFFF, by decide⟩, 0)], by decide⟩
  devices := #[.ram (.zeros 2)]
  accesses := []

/-- Two more where the addresses begin, with a byte behind them that has no address. -/
def edgeMemories : Bus where
  ranges := ⟨[(⟨0, 1, by decide⟩, 1), (⟨0xFFFFFFFE, 0xFFFFFFFF, by decide⟩, 0)], by decide⟩
  devices := #[.ram (.zeros 2), .ram (.zeros 3)]
  accesses := []

theorem memoryOnly_edgeMemories : edgeMemories.MemoryOnly := by
  have first : empty.attach ⟨0xFFFFFFFE, 0xFFFFFFFF, by decide⟩ (.ram (.zeros 2)) =
      .ok (0, lastMemory) := rfl
  have second : lastMemory.attach ⟨0, 1, by decide⟩ (.ram (.zeros 3)) =
      .ok (1, edgeMemories) := rfl
  refine .attach (.attach .empty ?_ first) ?_ second
  · rw [Ram.size_zeros]
    decide
  · rw [Ram.size_zeros]
    decide

/-- A copy that starts before the one memory, goes on in the other and ends behind it. -/
theorem edgeMemories_copy :
    ((edgeMemories.writeBytes 0xFFFFFFFD [1, 2, 3, 4, 5, 6]).readBytes 0xFFFFFFFD 6).1 =
        [0, 2, 3, 4, 5, 0] ∧
      ∃ ram, (edgeMemories.writeBytes 0xFFFFFFFD [1, 2, 3, 4, 5, 6]).device? 1 = some (.ram ram) ∧
        ram.byte 0 = 4 ∧ ram.byte 1 = 5 ∧ ram.byte 2 = 0 ∧ 0 ∈ ram.dirtyPages := by
  have fits : [1, 2, 3, 4, 5, (6 : Byte)].length ≤ 2 ^ 32 := by decide
  obtain ⟨reads, -, memories⟩ := copy_exact memoryOnly_edgeMemories 0xFFFFFFFD fits
  obtain ⟨ram, isRam, copied⟩ := memories 1 (.zeros 3) rfl
  refine ⟨(congrArg Prod.fst reads).trans (by decide), ram, isRam, ?_, ?_, ?_, ?_⟩
  · exact copied.written 3 (by decide) 0 (by decide)
  · exact copied.written 4 (by decide) 1 (by decide)
  · rw [copied.kept 2 (by decide), Ram.byte_zeros]
  · exact (copied.dirty 0).2 (.inr ⟨3, 0, by decide, by decide, by decide⟩)

end Bus

end Rv32
