import Rv32.Proofs.Transfers
import Rv32.Proofs.Turns

/-!
# Dirty pages

A memory remembers which of its pages were written: a store flags the page of its first byte. That
is the only page that it changes if the memory is attached at a multiple of four, because accesses
are aligned by their address. A memory that is attached elsewhere sees them shifted, and a store can
reach up to three bytes into a page that it does not flag (`Machine.straddlingMachine_missed`).
`Machine.changed_pages_dirty` says that nothing else is missed in a run.
-/

namespace Rv32

/-! ## One memory -/

namespace Ram

theorem mem_dirtyPages {ram : Ram} {page : Nat} :
    page ∈ ram.dirtyPages ↔ ram.isDirty page = true := by
  unfold dirtyPages
  rw [List.mem_filter, List.mem_range]
  refine ⟨And.right, fun dirty => ⟨Nat.lt_of_not_le fun beyond => ?_, dirty⟩⟩
  unfold isDirty at dirty
  rw [Array.getD_eq_getD_getElem?, Array.getElem?_eq_none beyond] at dirty
  cases dirty

theorem isDirty_zeros (size page : Nat) : (zeros size).isDirty page = false := by
  unfold isDirty zeros
  rw [Array.getD_eq_getD_getElem?, Array.getElem?_replicate]
  split <;> rfl

theorem dirtyPages_zeros (size : Nat) : (zeros size).dirtyPages = [] :=
  List.filter_eq_nil_iff.2 fun page _ => Bool.eq_false_iff.1 (isDirty_zeros size page)

theorem isDirty_write (ram : Ram) (offset value : Word) (width : Width) (page : Nat) :
    (ram.write offset value width).isDirty page = ram.isDirty page := by
  unfold write
  generalize List.range width.bytes = indices
  induction indices generalizing ram with
  | nil => rfl
  | cons index rest ih => exact ih (ram.setByte _ _)

/-- The page of a byte that a memory has is one of its pages. -/
theorem page_lt {ram : Ram} {index : Nat} (inside : index < ram.size) :
    index / pageSize < ram.dirty.size := by
  have pages := ram.dirty_size
  change index < ram.bytes.size at inside
  unfold pageSize at *
  omega

/-- From one memory to the other no flag was removed, and what changed is flagged. Where the memory
sees accesses shifted, a change can lie in the first bytes behind a flagged page instead. -/
structure Noted (shifted : Prop) (before after : Ram) : Prop where
  size : after.size = before.size
  kept : ∀ page, before.isDirty page = true → after.isDirty page = true
  noted : ∀ index, after.byte index ≠ before.byte index →
    after.isDirty (index / pageSize) = true ∨
      shifted ∧ index % pageSize < 3 ∧ after.isDirty (index / pageSize - 1) = true

namespace Noted

variable {shifted : Prop} {before middle after : Ram}

theorem refl (ram : Ram) : ram.Noted shifted ram :=
  ⟨rfl, fun _ => id, fun _ changed => absurd rfl changed⟩

theorem trans (left : before.Noted shifted middle) (right : middle.Noted shifted after) :
    before.Noted shifted after := by
  refine ⟨right.size.trans left.size, fun page dirty => right.kept page (left.kept page dirty),
    fun index changed => ?_⟩
  by_cases later : after.byte index = middle.byte index
  · rw [later] at changed
    rcases left.noted index changed with flagged | ⟨isShifted, first, flagged⟩
    · exact .inl (right.kept _ flagged)
    · exact .inr ⟨isShifted, first, right.kept _ flagged⟩
  · exact right.noted index later

end Noted

/-- A write that stays in the page of its first byte is noted, and so is one that leaves it in a
memory that sees accesses shifted. -/
theorem noted_write {shifted : Prop} (ram : Ram) {offset : Word} (value : Word) {width : Width}
    (fits : shifted ∨ offset.toNat % pageSize + width.bytes ≤ pageSize) :
    ram.Noted shifted ((ram.write offset value width).markDirty offset) := by
  refine ⟨ram.size_write .., fun page dirty => ?_, fun index changed => ?_⟩
  · rw [isDirty_markDirty, isDirty_write, dirty, Bool.or_true]
  · rw [byte_markDirty, byte_write] at changed
    have named : offset.toNat ≤ index ∧ index < offset.toNat + width.bytes ∧ index < ram.size :=
      Decidable.byContradiction fun outside => changed (if_neg outside)
    obtain ⟨above, below, inside⟩ := named
    have short : width.bytes ≤ 4 := by cases width <;> decide
    have flagged : ((ram.write offset value width).markDirty offset).isDirty
        (offset.toNat / pageSize) = true := by
      have size : (ram.write offset value width).size = ram.size := ram.size_write ..
      have isPage := page_lt (size ▸ Nat.lt_of_le_of_lt above inside)
      rw [isDirty_markDirty, decide_eq_true ⟨rfl, isPage⟩, Bool.true_or]
    unfold pageSize at fits flagged ⊢
    by_cases same : index / 4096 = offset.toNat / 4096
    · rw [same]
      exact .inl flagged
    · have previous : index / 4096 - 1 = offset.toNat / 4096 := by omega
      rw [previous]
      refine .inr ⟨fits.resolve_right ?_, by omega, flagged⟩
      omega

end Ram

/-! ## All memories of a bus -/

namespace Bus

/-- Whether a device sees accesses shifted, because it is attached at an address that is not a
multiple of four. -/
def Shifts (bus : Bus) (number : Nat) : Prop :=
  ∃ range, (range, number) ∈ bus.ranges.entries ∧ ¬ Width.word.Aligned range.first

/-- From one bus to the other all changes of memories were noted. -/
structure Noted (before after : Bus) : Prop where
  map : before.SameMap after
  memories : ∀ number ram, before.device? number = some (.ram ram) →
    ∃ ram', after.device? number = some (.ram ram') ∧ ram.Noted (before.Shifts number) ram'

namespace Noted

variable {before middle after : Bus}

theorem refl (bus : Bus) : bus.Noted bus :=
  ⟨.refl bus, fun _ ram isRam => ⟨ram, isRam, .refl ram⟩⟩

theorem trans (left : before.Noted middle) (right : middle.Noted after) : before.Noted after := by
  refine ⟨left.map.trans right.map, fun number ram isRam => ?_⟩
  obtain ⟨ram', isRam', noted⟩ := left.memories number ram isRam
  obtain ⟨ram'', isRam'', later⟩ := right.memories number ram' isRam'
  have shifts : middle.Shifts number = before.Shifts number := by
    unfold Shifts
    rw [left.map.ranges]
  rw [shifts] at later
  exact ⟨ram'', isRam'', noted.trans later⟩

/-- Nothing is to be noted where all memories stay. -/
theorem of_kept (map : before.SameMap after)
    (kept : ∀ number ram, before.device? number = some (.ram ram) →
      after.device? number = some (.ram ram)) : before.Noted after :=
  ⟨map, fun number ram isRam => ⟨ram, kept number ram isRam, .refl ram⟩⟩

end Noted

variable {bus : Bus} {address : Word}

theorem noted_read (region : Region) (offset : Word) (width : Width) :
    bus.Noted (bus.read region offset width).2 := by
  refine .of_kept (bus.sameMap_read ..) fun number ram isRam => ?_
  by_cases same : region.device = number
  · subst same
    rw [read_ram isRam]
    exact isRam
  · unfold read
    split
    · rename_i device isDevice
      have others :
          (bus.devices.setIfInBounds region.device (device.read offset width).2)[number]? =
            bus.devices[number]? := Array.getElem?_setIfInBounds_ne same
      cases device <;> exact others.trans isRam
    · exact isRam

theorem noted_load (address : Word) (width : Width) : bus.Noted (bus.load address width).2 := by
  unfold load
  split
  · exact noted_read ..
  · exact .refl bus

/-- A store at an aligned address leaves its page only in a memory that sees it shifted. -/
theorem fits_or_shifts {region : Region} (found : bus.findRegion address = some region)
    {width : Width} (aligned : width.Aligned address) :
    bus.Shifts region.device ∨
      (region.range.offsetOf address).toNat % pageSize + width.bytes ≤ pageSize := by
  obtain ⟨⟨member, -⟩, contains⟩ := findRegion_eq_some_iff.1 found
  by_cases start : Width.word.Aligned region.range.first
  · refine .inr ?_
    obtain ⟨above, -⟩ := AddressRange.contains_iff.1 contains
    rw [BitVec.le_def] at above
    rw [offsetOf_toNat contains]
    change region.range.first.toNat % 4 = 0 at start
    unfold Width.Aligned at aligned
    unfold pageSize
    cases width with
    | byte =>
        change _ % 4096 + 1 ≤ 4096
        omega
    | half =>
        change address.toNat % 2 = 0 at aligned
        change _ % 4096 + 2 ≤ 4096
        omega
    | word =>
        change address.toNat % 4 = 0 at aligned
        change _ % 4096 + 4 ≤ 4096
        omega
  · exact .inl ⟨region.range, member, start⟩

theorem noted_store {width : Width} (aligned : width.Aligned address) (value : Word) :
    bus.Noted (bus.store address value width) := by
  rcases found : bus.findRegion address with _ | region
  · unfold store
    rw [found]
    exact .refl bus
  · refine ⟨bus.sameMap_store .., fun number ram isRam => ?_⟩
    by_cases same : region.device = number
    · subst same
      have stored := store_ram found isRam value width
      exact ⟨_, stored.written, ram.noted_write value (fits_or_shifts found aligned)⟩
    · have kept := device?_store_of_ne found same value width
      exact ⟨ram, kept.trans isRam, .refl ram⟩

end Bus

/-! ## Instructions -/

theorem Bus.noted_onBus (instruction : Instruction) (start : Hart) {physical : Word}
    (aligned : instruction.accessWidth.Aligned physical) (bus : Bus) :
    bus.Noted (instruction.onBus start physical bus) := by
  cases instruction with
  | load op rd rs1 offset => exact noted_load ..
  | store width rs2 rs1 offset => exact noted_store aligned _
  | loadReserved rd rs1 => exact noted_load ..
  | storeConditional rd rs1 rs2 =>
      unfold Instruction.onBus
      dsimp only
      split
      · exact noted_store aligned _
      · exact .refl bus
  | amo op rd rs1 rs2 => exact (noted_load physical .word).trans (noted_store aligned _)
  | _ => exact .refl bus

namespace Machine

/-- From one machine to the other all changes of memories were noted. -/
def BusNoted (before after : Machine) : Prop := before.bus.Noted after.bus

variable {machine : Machine}

theorem BusNoted.refl (machine : Machine) : machine.BusNoted machine := Bus.Noted.refl machine.bus

theorem BusNoted.trans (first second third : Machine) (left : first.BusNoted second)
    (right : second.BusNoted third) : first.BusNoted third :=
  Bus.Noted.trans left right

theorem markUsed_busNoted {location : Word} (aligned : Width.word.Aligned location)
    (entry : PageTableEntry) (kind : AccessKind) :
    (markUsed location entry kind).Within BusNoted := by
  intro machine
  unfold markUsed
  rw [Effect.outcome_ite]
  split
  · exact .refl _
  · exact Bus.noted_store aligned _

theorem locate_busNoted (address : Word) (kind : AccessKind) :
    (locate address kind).Within BusNoted := by
  refine locate_within .refl .trans ?_ fun machine _ _ _ => .refl machine
  exact translate_within .refl .trans (fun _ _ => Bus.noted_load ..)
    (fun _ aligned => markUsed_busNoted aligned) address kind

theorem fetch_busNoted : fetch.Within BusNoted := by
  refine fetch_within .refl .trans (locate_busNoted · .fetch)
    fun physical region? width machine => ?_
  cases region? with
  | none => exact .refl machine
  | some region => exact Bus.noted_read ..

theorem execute_busNoted (sound : machine.Sound) (instruction : Instruction) (raw length : Word) :
    machine.BusNoted ((execute instruction raw length).outcome machine).2 := by
  unfold BusNoted
  rcases access : instruction.access machine.hart with _ | ⟨address, kind⟩
  · rw [bus_execute_of_noAccess access]
    exact .refl _
  · have located := locate_busNoted address kind (prepare instruction machine)
    unfold BusNoted at located
    rw [bus_prepare] at located
    rw [bus_execute sound access]
    rcases ended : (locate address kind).outcome (prepare instruction machine) with
      ⟨raised | ⟨physical, region?⟩, after⟩
    all_goals rw [ended] at located
    · exact located
    · have aligned := aligned_of_locate (Instruction.access_eq_some access).1 ended
      exact located.trans (Bus.noted_onBus instruction machine.hart aligned after.bus)

theorem executeNext_busNoted (sound : machine.Sound) :
    machine.BusNoted (executeNext.outcome machine).2 := by
  have fetched := fetch_busNoted machine
  have stays := Sound.respects.fetch machine sound
  rw [executeNext_outcome]
  rcases wasFetched : fetch.outcome machine with ⟨raised | raw, middle⟩
  all_goals rw [wasFetched] at fetched stays
  · exact fetched
  · dsimp only
    rcases decodeFetched raw with refused | ⟨instruction, length⟩
    · exact fetched
    · exact .trans _ _ _ fetched (execute_busNoted stays instruction raw length)

theorem cycle_busNoted (sound : machine.Sound) :
    machine.BusNoted (cycle.outcome machine).2 := by
  unfold BusNoted
  rcases pending : machine.hart.nextInterrupt with _ | interrupt
  · rw [bus_cycle pending]
    exact executeNext_busNoted sound.counted
  · rw [bus_cycle_of_interrupt pending]
    exact .refl _

theorem run_busNoted (sound : machine.Sound) (budget : Nat) :
    machine.BusNoted (machine.run budget).value := by
  have kept := run_keeps (fun after => after.Sound ∧ machine.BusNoted after)
    (fun after both _ => ⟨both.1.cycle, .trans _ _ _ both.2 (cycle_busNoted both.1)⟩)
    (fun after _ both => ⟨⟨both.1.bus, both.1.cached⟩, both.2⟩) ⟨sound, .refl machine⟩ budget
  exact kept.2

/-- After a run, a page of a memory that holds a byte that changed is dirty. The memory can miss the
change of one of the first three bytes of a page, behind a page that is dirty, but only if it is
attached at an address that is not a multiple of four. On a sound bus every machine that is reached
is sound (`Sound.of_reaches`). -/
theorem changed_pages_dirty (sound : machine.Sound) (budget : Nat) {number : Nat} {ram : Ram}
    (isRam : machine.bus.device? number = some (.ram ram)) :
    ∃ after, (machine.run budget).value.bus.device? number = some (.ram after) ∧
      ∀ index, after.byte index ≠ ram.byte index →
        index / pageSize ∈ after.dirtyPages ∨
          machine.bus.Shifts number ∧ index % pageSize < 3 ∧
            index / pageSize - 1 ∈ after.dirtyPages := by
  obtain ⟨after, isAfter, noted⟩ := (run_busNoted sound budget).memories number ram isRam
  refine ⟨after, isAfter, fun index changed => ?_⟩
  rw [Ram.mem_dirtyPages, Ram.mem_dirtyPages]
  exact noted.noted index changed

/-- The range of the program `sw x5, 0(x10)`. -/
def storeProgram : AddressRange := ⟨0x80000000, 0x80000003, by decide⟩

/-- The memory of the program. -/
def storeMemory : Ram := (Ram.zeros 4).loadImage 0 [0x23, 0x20, 0x55, 0]

/-- The region of the program. -/
def storeRegion : Region := ⟨0, storeProgram, .memory⟩

/-- A hart that is about to store the word 0x90001000 at that address. -/
def storingHart : Hart := ((Hart.initial ⟨0x80000000, 0⟩).setX 10 0x90001000).setX 5 0x90001000

/-- A machine with this hart, with one memory for the program and another one behind it. -/
def storingMachine (data : AddressRange) (apart : storeProgram.last < data.first) (ram : Ram) :
    Machine where
  hart := storingHart
  bus :=
    { ranges := ⟨[(storeProgram, 0), (data, 1)], List.pairwise_pair.2 apart⟩
      devices := #[.ram storeMemory, .ram ram]
      accesses := [] }

section Storing

variable {data : AddressRange} {apart : storeProgram.last < data.first} {ram : Ram}

theorem sound_storingMachine : (storingMachine data apart ram).Sound := by
  have attached : ∀ entry ∈ (storingMachine data apart ram).bus.ranges.entries,
      entry = (storeProgram, 0) ∨ entry = (data, 1) := by
    intro entry member
    exact (List.mem_cons.1 member).imp_right List.mem_singleton.1
  refine ⟨⟨fun entry member => ?_, fun first isFirst second isSecond same => ?_⟩, .empty _⟩
  · rcases attached entry member with rfl | rfl <;> rfl
  · rcases attached first isFirst with rfl | rfl <;>
      rcases attached second isSecond with rfl | rfl
    · rfl
    · cases same
    · cases same
    · rfl

/-- The hart after its fetch, with the place of the program in its caches. -/
def fetchedHart : Hart :=
  { storingHart with
    mcycle := 1
    tlb := Tlb.empty.insert 0x80000000 0x80000000 storeRegion .fetch }

-- The memory that is stored to remains a variable, so that its bytes do not take part in any
-- evaluation: the fetch is taken apart by lemmas down to the two parcels in the other memory.

theorem storingMachine_fetch :
    fetch.outcome (storingMachine data apart ram).counted =
      (.ok 0x552023, ⟨fetchedHart, (storingMachine data apart ram).bus⟩) := by
  have found : (storingMachine data apart ram).bus.findRegion 0x80000000 = some storeRegion :=
    Bus.findRegion_eq_some_iff.2 ⟨⟨List.mem_cons_self, rfl⟩, by decide⟩
  have missed : (locate 0x80000000 .fetch).outcome (storingMachine data apart ram).counted =
      (.ok (0x80000000, some storeRegion),
        ⟨fetchedHart, (storingMachine data apart ram).bus⟩) :=
    locate_of_bypasses (Tlb.lookup_empty ..) (.inl rfl) found
  have cached : fetchedHart.tlb.lookup 0x80000002 .fetch = some (0x80000002, storeRegion) := by
    decide
  have hit : (locate 0x80000002 .fetch).outcome
      ⟨fetchedHart, (storingMachine data apart ram).bus⟩ =
      (.ok (0x80000002, some storeRegion),
        ⟨fetchedHart, (storingMachine data apart ram).bus⟩) :=
    locate_of_hit cached
  have low := fetchParcel_of_located missed rfl rfl
  have high := fetchParcel_of_located hit rfl rfl
  have word : (storeMemory.read (storeProgram.offsetOf 0x80000002) .half).setWidth 16 ++
      (storeMemory.read (storeProgram.offsetOf 0x80000000) .half).setWidth 16 = (0x552023 : Word) :=
    by decide
  have aligned : Width.half.Aligned storingHart.pc := by decide
  rw [← word]
  exact fetch_of_parcels aligned low (by decide) high

theorem bus_turn_storingMachine :
    (storingMachine data apart ram).turn.bus =
      (storingMachine data apart ram).bus.store 0x90001000 0x90001000 .word := by
  have start : (storingMachine data apart ram).counted.Sound := sound_storingMachine.counted
  have sound := Sound.respects.fetch _ start
  rw [storingMachine_fetch] at sound
  have decoded : decodeFetched 0x552023 = .ok (.store .word 5 10 0, 4) := rfl
  have access : (Instruction.store .word 5 10 0).access fetchedHart = some (0x90001000, .store) := by
    decide
  have missed : fetchedHart.tlb.lookup 0x90001000 .store = none := by decide
  have stored : fetchedHart.x 5 &&& Width.word.mask = 0x90001000 := by decide
  have nothing : storingHart.nextInterrupt = none := by decide
  have uninterrupted : (storingMachine data apart ram).hart.nextInterrupt = none := nothing
  rw [turn_running rfl, bus_cycle uninterrupted, executeNext_outcome, storingMachine_fetch]
  dsimp only
  rw [decoded]
  dsimp only
  rw [bus_execute_of_bypasses sound access missed (.inl rfl)]
  dsimp only [Instruction.onBus]
  rw [stored]

theorem storingMachine_run (inside : data.contains 0x90001000 = true) :
    ((storingMachine data apart ram).run 1).value.bus.device? 1 =
      some (.ram ((ram.write (data.offsetOf 0x90001000) 0x90001000 .word).markDirty
        (data.offsetOf 0x90001000))) := by
  have found : (storingMachine data apart ram).bus.findRegion 0x90001000 =
      some ⟨1, data, .memory⟩ := by
    have attached := List.mem_cons_of_mem (storeProgram, 0) (List.mem_singleton_self (data, 1))
    exact Bus.findRegion_eq_some_iff.2 ⟨⟨attached, rfl⟩, inside⟩
  have stored := (Bus.store_ram found rfl 0x90001000 .word).written
  rw [run_one rfl, bus_turn_storingMachine]
  exact stored

end Storing

/-- The store to a memory of two pages that is attached at a multiple of four. -/
def alignedMachine : Machine :=
  storingMachine ⟨0x90000000, 0x90001FFF, by decide⟩ (by decide) (.zeros 0x2000)

/-- The memory has noted the store to its second page. -/
theorem alignedMachine_dirty :
    alignedMachine.Sound ∧ alignedMachine.bus.device? 1 = some (.ram (.zeros 0x2000)) ∧
      ∃ after, (alignedMachine.run 1).value.bus.device? 1 = some (.ram after) ∧
        after.byte 0x1001 = 0x10 ∧ 0x1001 / pageSize ∈ after.dirtyPages := by
  have sound : alignedMachine.Sound := sound_storingMachine
  have isRam : alignedMachine.bus.device? 1 = some (.ram (.zeros 0x2000)) := rfl
  have unshifted : ¬ alignedMachine.bus.Shifts 1 := by
    rintro ⟨range, member, shifted⟩
    rcases List.mem_cons.1 member with same | member
    · cases same
    · cases List.mem_singleton.1 member
      exact shifted (by decide)
  obtain ⟨after, isAfter, noted⟩ := changed_pages_dirty sound 1 isRam
  have written := Option.some.inj (isAfter.symm.trans (storingMachine_run (by decide)))
  have changed : after.byte 0x1001 = 0x10 := by
    rw [Device.ram.inj written, Ram.byte_markDirty, Ram.byte_write, Ram.size_zeros]
    decide
  have differs : after.byte 0x1001 ≠ (Ram.zeros 0x2000).byte 0x1001 := by
    rw [changed, Ram.byte_zeros]
    decide
  have flagged := (noted 0x1001 differs).resolve_right fun missed => unshifted missed.1
  exact ⟨sound, isRam, after, isAfter, changed, flagged⟩

/-- The store to a memory of two pages that is attached two bytes later. -/
def straddlingMachine : Machine :=
  storingMachine ⟨0x90000002, 0x90002001, by decide⟩ (by decide) (.zeros 0x2000)

/-- The memory sees the store straddle its pages and misses that the second one changed. -/
theorem straddlingMachine_missed :
    straddlingMachine.Sound ∧
      ∃ before after, straddlingMachine.bus.device? 1 = some (.ram before) ∧
        before.dirtyPages = [] ∧
        (straddlingMachine.run 1).value.bus.device? 1 = some (.ram after) ∧
        after.byte 0x1001 ≠ before.byte 0x1001 ∧ 0x1001 / pageSize ∉ after.dirtyPages := by
  refine ⟨sound_storingMachine, _, _, rfl, Ram.dirtyPages_zeros _, storingMachine_run (by decide),
    ?_, ?_⟩
  · rw [Ram.byte_markDirty, Ram.byte_write, Ram.byte_zeros, Ram.size_zeros]
    decide
  · rw [Ram.mem_dirtyPages, Ram.isDirty_markDirty, Ram.isDirty_write, Ram.isDirty_zeros,
      Bool.or_false, decide_eq_true_iff]
    exact fun first => absurd first.1 (by decide)

end Machine

end Rv32
