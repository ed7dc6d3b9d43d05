import Rv32.Proofs.IoDevices
import Rv32.Proofs.Transfers

/-!
# Atomic operations as loads and stores

An atomic operation translates its address once, for a store. A load followed by a store translates
it twice, with other rules and other marks. Yet the two do the same: what may be written may be
read, so both walks end at the same leaf (`Machine.leafOf_load_of_store`), and a leaf that is marked
by a load and then by a store is left as by the store alone (`Bus.mark_mark`).

Between the two marks stands the access of the load. It may reach a device, but it cannot be told
whether it comes before or after a mark, as long as the leaf is not the word it reads
(`Bus.load_mark`).
-/

namespace Rv32

namespace PageTableEntry

theorem used_load_store (entry : PageTableEntry) :
    (entry.used .load).used .store = entry.used .store := by
  unfold used
  rw [BitVec.or_assoc]
  rfl

theorem used_store_load (entry : PageTableEntry) :
    (entry.used .store).used .load = entry.used .store := by
  unfold used
  rw [BitVec.or_assoc]
  rfl

theorem readable_of_writable {entry : PageTableEntry} (formed : entry.wellFormed = true)
    (writable : entry.writable = true) : entry.readable = true := by
  unfold wellFormed at formed
  rw [writable] at formed
  simpa using (Bool.and_eq_true_iff.1 formed).2

end PageTableEntry

/-! ## Repeated stores -/

namespace Ram

theorem dirty_write (ram : Ram) (offset value : Word) (width : Width) :
    (ram.write offset value width).dirty = ram.dirty := by
  unfold write
  generalize List.range width.bytes = indices
  induction indices generalizing ram with
  | nil => rfl
  | cons index rest ih => exact ih (ram.setByte _ _)

theorem dirty_markDirty (ram : Ram) (offset : Word) :
    (ram.markDirty offset).dirty = ram.dirty.setIfInBounds (offset.toNat / pageSize) true := rfl

/-- A store is lost in a later one at the same place. -/
theorem write_markDirty_write (ram : Ram) (offset first second : Word) (width : Width) :
    (((ram.write offset first width).markDirty offset).write offset second width).markDirty offset =
      (ram.write offset second width).markDirty offset := by
  have size : ((ram.write offset first width).markDirty offset).size = ram.size :=
    ram.size_write offset first width
  refine eq_of_view ?_ (fun index => ?_) ?_
  · exact (size_write ..).trans (size.trans (ram.size_write offset second width).symm)
  · rw [byte_markDirty, byte_markDirty, byte_write, byte_write, byte_markDirty, byte_write, size]
    split <;> rfl
  · rw [dirty_markDirty, dirty_write, dirty_markDirty, dirty_write, dirty_markDirty, dirty_write,
      Array.setIfInBounds_setIfInBounds]

end Ram

namespace Bus

variable {bus : Bus} {address place : Word}

theorem eq_of_view {first second : Bus} (ranges : first.ranges = second.ranges)
    (devices : ∀ number, first.device? number = second.device? number)
    (accesses : first.accesses = second.accesses) : first = second := by
  cases first
  cases second
  cases ranges
  cases accesses
  cases Array.ext_getElem? devices
  rfl

/-- A store to main memory is lost in a later one at the same place. -/
theorem store_store (inside : bus.InMemory place) (first second : Word) (width : Width) :
    (bus.store place first width).store place second width = bus.store place second width := by
  obtain ⟨region, ram, found, -, isRam⟩ := inside.backed
  have once := store_ram found isRam first width
  have twice := store_ram ((bus.findRegion_store ..).trans found) once.written second width
  have only := store_ram found isRam second width
  refine eq_of_view ?_ (fun number => ?_) ?_
  · rw [twice.ranges, once.ranges, only.ranges]
  · by_cases here : region.device = number
    · subst here
      rw [twice.written, only.written, Ram.write_markDirty_write]
    · rw [twice.others _ here, once.others _ here, only.others _ here]
  · rw [twice.accesses, once.accesses, only.accesses]

/-! ## Loads between stores -/

/-- No load changes a memory. -/
theorem device?_load_of_ram {number : Nat} {ram : Ram}
    (isRam : bus.device? number = some (.ram ram)) (address : Word) (width : Width) :
    (bus.load address width).2.device? number = some (.ram ram) := by
  rcases isIo : bus.ioRegion? address with _ | region
  · rcases inMemory_or_of_ioRegion? isIo with inside | nowhere
    · rw [load_of_inMemory inside]
      exact isRam
    · unfold load
      rw [nowhere]
      exact isRam
  · obtain ⟨device, isDevice, io⟩ := device_of_ioRegion? isIo
    have other : region.device ≠ number := by
      rintro rfl
      rw [isRam] at isDevice
      cases isDevice
      cases io
    rw [device?_load_of_io isIo isDevice io, if_neg other]
    exact isRam

theorem word_load (inside : bus.InMemory place) (address : Word) (width : Width) :
    (bus.load address width).2.word place = bus.word place := by
  obtain ⟨region, ram, found, -, isRam⟩ := inside.backed
  have foundAfter := (bus.findRegion_load address width place).trans found
  rw [word_of_ram foundAfter (device?_load_of_ram isRam address width), word_of_ram found isRam]

theorem ages_load (bus : Bus) (address : Word) (width : Width) :
    bus.Ages (bus.load address width).2 := by
  refine ⟨bus.sameMap_load .., fun location inside _ => ?_⟩
  unfold entryAt
  rw [word_load inside]
  exact .refl _

/-- A load cannot be told from one that was made before a store to main memory, unless it reads what
is stored. -/
theorem load_store (sound : bus.Sound) (inside : bus.InMemory place)
    (aligned : Width.word.Aligned address) (alignedPlace : Width.word.Aligned place)
    (different : place ≠ address) (value : Word) :
    (bus.store place value .word).load address .word =
      ((bus.load address .word).1, (bus.load address .word).2.store place value .word) := by
  have map := bus.sameMap_store place value .word
  rcases isIo : bus.ioRegion? address with _ | region
  · rcases inMemory_or_of_ioRegion? isIo with insideToo | nowhere
    · rw [load_of_inMemory insideToo]
      have word : (bus.store place value .word).word address = bus.word address :=
        word_store_of_ne sound insideToo inside aligned alignedPlace different
      exact Prod.ext word (load_of_inMemory (map.inMemory insideToo) .word)
    · have nowhereAfter := (map.findRegion_eq address).trans nowhere
      unfold load
      rw [nowhere, nowhereAfter]
  · obtain ⟨device, isDevice, io⟩ := device_of_ioRegion? isIo
    obtain ⟨other, ram, found, -, isRam⟩ := inside.backed
    have stored := store_ram found isRam value .word
    have apart : other.device ≠ region.device := by
      intro same
      rw [same, isDevice] at isRam
      cases isRam
      cases io
    have isIoAfter := (ioRegion?_eq map address).trans isIo
    have isDeviceAfter := (stored.others _ apart).trans isDevice
    have storedAfter := store_ram ((bus.findRegion_load address .word place).trans found)
      (device?_load_of_ram isRam address .word) value .word
    refine Prod.ext ?_ (eq_of_view ?_ (fun number => ?_) ?_)
    · rw [load_of_io isIoAfter isDeviceAfter io, load_of_io isIo isDevice io]
    · rw [storedAfter.ranges, load_of_io isIoAfter isDeviceAfter io, load_of_io isIo isDevice io]
      exact stored.ranges
    · rw [device?_load_of_io isIoAfter isDeviceAfter io]
      by_cases here : other.device = number
      · subst here
        rw [if_neg apart.symm, stored.written, storedAfter.written]
      · rw [storedAfter.others _ here, device?_load_of_io isIo isDevice io, stored.others _ here]
    · rw [storedAfter.accesses, load_of_io isIoAfter isDeviceAfter io, load_of_io isIo isDevice io,
        stored.accesses]

/-! ## Marks -/

section Mark

variable {leaf : Leaf} (inside : bus.InMemory leaf.location)

include inside

/-- A load cannot be told from one that was made before a leaf was marked, unless it reads the
leaf. -/
theorem load_mark (sound : bus.Sound) (aligned : Width.word.Aligned address)
    (alignedLeaf : Width.word.Aligned leaf.location) (different : leaf.location ≠ address)
    (kind : AccessKind) :
    (bus.mark leaf kind).load address .word =
      ((bus.load address .word).1, (bus.load address .word).2.mark leaf kind) := by
  unfold mark
  split
  · rfl
  · exact load_store sound inside aligned alignedLeaf different _

/-- A leaf that is marked by a load and then by a store is left as by the store alone. -/
theorem mark_mark :
    (bus.mark leaf .load).mark { leaf with entry := leaf.entry.used .load } .store =
      bus.mark leaf .store := by
  have both : (leaf.entry.used .load).used .store = leaf.entry.used .store :=
    leaf.entry.used_load_store
  unfold mark
  rw [both]
  by_cases accessed : leaf.entry.used .load = leaf.entry
  · rw [if_pos accessed, accessed]
  · have unused : leaf.entry.used .store ≠ leaf.entry := fun used =>
      accessed <|
        calc leaf.entry.used .load
          _ = (leaf.entry.used .store).used .load := by rw [used]
          _ = leaf.entry.used .store := leaf.entry.used_store_load
          _ = leaf.entry := used
    rw [if_neg accessed, if_neg unused]
    split
    · rename_i dirty
      rw [dirty]
    · exact store_store inside _ _ _

end Mark

/-! ## Leaves -/

/-- A walk that ends at a leaf ends there also if more leaves may be used. -/
theorem findLeaf_mono {fewer more : PageTableEntry → Bool}
    (included : ∀ {entry : PageTableEntry}, entry.wellFormed = true → fewer entry = true →
      more entry = true)
    {levels : Nat} {table : Word} {leaf : Leaf}
    (found : bus.findLeaf address fewer levels table = some leaf) :
    bus.findLeaf address more levels table = some leaf := by
  induction levels generalizing table with
  | zero => cases found
  | succ level ih =>
      unfold findLeaf at found ⊢
      dsimp only at found ⊢
      generalize bus.entryAt (Machine.entryAddress table address level) = entry at found ⊢
      cases formed : entry.wellFormed with
      | false =>
          rw [formed] at found
          cases found
      | true =>
          rw [formed] at found
          cases pointer : entry.isPointer with
          | true =>
              rw [pointer] at found
              exact ih found
          | false =>
              rw [pointer] at found
              cases allowed : fewer entry with
              | false =>
                  rw [allowed] at found
                  cases found
              | true =>
                  rw [allowed] at found
                  rw [included formed allowed]
                  exact found

end Bus

namespace Machine

variable {machine after : Machine} {address physical : Word}

/-! ## Two translations for one -/

/-- What may be written may be read. -/
theorem permits_load_of_store {entry : PageTableEntry} {hart : Hart}
    (wellFormed : entry.wellFormed = true) (permitted : permits entry hart .store = true) :
    permits entry hart .load = true := by
  obtain ⟨level, writable⟩ := Bool.and_eq_true_iff.1 permitted
  have sameLevel : entry.permitsLevel (effectiveLevel hart .load) .load hart.status.sum =
      entry.permitsLevel (effectiveLevel hart .store) .store hart.status.sum := rfl
  unfold permits PageTableEntry.permitsKind
  rw [sameLevel, level, PageTableEntry.readable_of_writable wellFormed writable]
  rfl

/-- A load is translated by the leaf that translates a store. -/
theorem leafOf_load_of_store {leaf : Leaf} (found : machine.leafOf address .store = some leaf) :
    machine.leafOf address .load = some leaf := by
  unfold leafOf at found ⊢
  split at found
  · cases found
  · rename_i walks
    refine (if_neg walks).trans ?_
    exact Bus.findLeaf_mono (fun formed => permits_load_of_store formed) found

section Twice

variable (sound : machine.bus.Sound)
  (inside : ∀ location ∈ machine.pathOf address .store, machine.bus.InMemory location)

include sound inside

/-- A walk for a store after a load of the same word, in a hart that differs at most in its caches.
Which of the two marks the leaf is not seen after the second one. -/
theorem translate_after_load {leaf : Leaf} (walks : ¬Bypasses machine.hart .store)
    (found : machine.leafOf address .store = some leaf)
    (aligned : Width.word.Aligned (leaf.physical address))
    (apart : leaf.physical address ∉ machine.pathOf address .store) {hart : Hart}
    (same : machine.hart.EqModTlb hart) :
    let physical := leaf.physical address
    (translate address .store).outcome
        ⟨hart, ((machine.bus.mark leaf .load).load physical .word).2⟩ =
      (.ok physical, ⟨hart, ((machine.bus.mark leaf .store).load physical .word).2⟩) := by
  intro physical
  obtain ⟨member, alignedLeaf, isEntry, formed, -⟩ := leafOf_eq_some found
  have insideLeaf := inside _ member
  have different : leaf.location ≠ physical := by
    intro equal
    rw [equal] at member
    exact apart member
  have marks := Bus.ages_mark .load insideLeaf isEntry formed sound alignedLeaf
  let marked : Leaf := { leaf with entry := leaf.entry.used .load }
  let read := (machine.bus.load physical .word).2
  let middle := ((machine.bus.mark leaf .load).load physical .word).2
  have commutes := fun kind =>
    congrArg Prod.snd (Bus.load_mark insideLeaf sound aligned alignedLeaf different kind)
  have buses : middle.mark marked .store = ((machine.bus.mark leaf .store).load physical .word).2 :=
    calc middle.mark marked .store
      _ = (read.mark leaf .load).mark marked .store :=
        congrArg (Bus.mark · marked .store) (commutes .load)
      _ = read.mark leaf .store :=
        Bus.mark_mark ((machine.bus.sameMap_load ..).inMemory insideLeaf)
      _ = ((machine.bus.mark leaf .store).load physical .word).2 :=
        (commutes .store).symm
  have entry : middle.entryAt leaf.location = leaf.entry.used .load :=
    calc middle.entryAt leaf.location
      _ = (machine.bus.mark leaf .load).entryAt leaf.location :=
        congrArg PageTableEntry.mk (Bus.word_load (marks.map.inMemory insideLeaf) ..)
      _ = leaf.entry.used .load := Bus.entryAt_mark .load insideLeaf isEntry formed
  let again : Machine := ⟨hart, middle⟩
  have ages : machine.bus.Ages again.bus := marks.trans (Bus.ages_load ..)
  have gains := gains_of_ages ages inside
  have context := same.access.program.translationContext .store
  have isMarked : again.leafOf address .store = some marked := by
    rw [leafOf_of_gains gains context, found]
    exact congrArg (fun entry => some { leaf with entry := entry }) entry
  have insideAgain : ∀ location ∈ again.pathOf address .store, again.bus.InMemory location := by
    rw [pathOf_of_gains gains context]
    exact fun location onPath => ages.map.inMemory (inside location onPath)
  have stillWalks : ¬Bypasses hart .store :=
    fun bypasses => walks ((bypasses_iff_of_context context).1 bypasses)
  rw [translate_outcome insideAgain, if_neg stillWalks, isMarked]
  dsimp only
  rw [buses, Leaf.physical_of_gains (leaf.entry.gains_used .load)]

/-- Where a store is translated a load is, to the same word. The load finds what is there, and the
store that follows is translated as if it were the first to be. -/
theorem translate_twice
    (translated : (translate address .store).outcome machine = (.ok physical, after))
    (aligned : Width.word.Aligned physical) (apart : physical ∉ machine.pathOf address .store) :
    ∃ bus : Bus, (translate address .load).outcome machine =
        (.ok physical, { machine with bus := bus }) ∧
      (bus.load physical .word).1 = (after.bus.load physical .word).1 ∧
      ∀ hart, machine.hart.EqModTlb hart →
        (translate address .store).outcome ⟨hart, (bus.load physical .word).2⟩ =
          (.ok physical, ⟨hart, (after.bus.load physical .word).2⟩) := by
  have insideLoad : ∀ location ∈ machine.pathOf address .load, machine.bus.InMemory location :=
    inside
  by_cases bypasses : Bypasses machine.hart .store
  · rw [translate_of_bypasses bypasses] at translated
    cases translated
    refine ⟨machine.bus, translate_of_bypasses bypasses, rfl, fun hart same => ?_⟩
    have context := same.access.program.translationContext .store
    exact translate_of_bypasses ((bypasses_iff_of_context context).2 bypasses)
  · rw [translate_outcome inside, if_neg bypasses] at translated
    rcases found : machine.leafOf address .store with _ | leaf
    · rw [found] at translated
      cases translated
    · rw [found] at translated
      cases translated
      obtain ⟨member, alignedLeaf, -⟩ := leafOf_eq_some found
      have different : leaf.location ≠ leaf.physical address := by
        intro equal
        rw [equal] at member
        exact apart member
      have commutes := fun kind =>
        congrArg Prod.fst
          (Bus.load_mark (inside _ member) sound aligned alignedLeaf different kind)
      refine ⟨machine.bus.mark leaf .load, ?_, (commutes .load).trans (commutes .store).symm,
        fun hart same => translate_after_load sound inside bypasses found aligned apart same⟩
      rw [translate_outcome insideLoad, leafOf_load_of_store found]
      exact if_neg bypasses

end Twice

/-! ## Accesses to addresses that are not cached -/

/-- What is not cached is translated and then found on the bus. Nothing of the hart changes but the
cache for this kind of access. -/
theorem locate_of_translate {kind : AccessKind}
    (missed : machine.hart.tlb.lookup address kind = none)
    (translated : (translate address kind).outcome machine = (.ok physical, after)) :
    ∃ hart, (locate address kind).outcome machine =
        (.ok (physical, after.bus.findRegion physical), { after with hart := hart }) ∧
      machine.hart.EqModTlb hart ∧
      ∀ other ≠ kind,
        hart.tlb.lookup address other = machine.hart.tlb.lookup address other := by
  have cached := locate_hartCached address kind machine
  have others := locate_cachesOnly address kind machine
  have located : ∃ hart, (locate address kind).outcome machine =
      (.ok (physical, after.bus.findRegion physical), { after with hart := hart }) := by
    rw [locate_of_miss missed, translated]
    dsimp only
    rcases found : after.bus.findRegion physical with _ | region
    · exact ⟨after.hart, rfl⟩
    · exact ⟨_, rfl⟩
  obtain ⟨hart, located⟩ := located
  rw [located] at cached others
  refine ⟨hart, located, cached, fun other different => ?_⟩
  unfold Tlb.lookup
  rw [others other different]

section Located

variable {width : Width} {region? : Option Region}

theorem load_of_locate (aligned : width.Aligned address)
    (located : (locate address .load).outcome machine = (.ok (physical, region?), after))
    (found : region? = after.bus.findRegion physical) :
    (load address width).outcome machine =
      (.ok (after.bus.load physical width).1,
        { after with bus := (after.bus.load physical width).2 }) := by
  unfold load
  rw [Attempt.outcome_ite, if_neg (not_not_intro aligned), Attempt.outcome_bind_ok located]
  dsimp only
  rw [Attempt.outcome_lift, readLocated_outcome found]

theorem store_of_locate (aligned : width.Aligned address)
    (located : (locate address .store).outcome machine = (.ok (physical, region?), after))
    (found : region? = after.bus.findRegion physical) (value : Word) :
    (store address value width).outcome machine =
      (.ok (), { after with bus := after.bus.store physical (value &&& width.mask) width }) := by
  unfold store
  rw [Attempt.outcome_ite, if_neg (not_not_intro aligned), Attempt.outcome_bind_ok located]
  dsimp only
  rw [Attempt.outcome_lift, writeLocated_outcome found]

theorem atomicUpdate_of_locate (aligned : Width.word.Aligned address)
    (located : (locate address .store).outcome machine = (.ok (physical, region?), after))
    (found : region? = after.bus.findRegion physical) (change : Word → Word) :
    let read := after.bus.load physical .word
    (atomicUpdate address change).outcome machine =
      (.ok read.1, { after with
        bus := read.2.store physical (change read.1 &&& Width.word.mask) .word }) := by
  intro read
  have still : region? = read.2.findRegion physical :=
    found.trans (after.bus.findRegion_load physical .word physical).symm
  unfold atomicUpdate
  rw [Attempt.outcome_ite, if_neg (not_not_intro aligned), Attempt.outcome_bind_ok located]
  dsimp only
  rw [Attempt.outcome_lift_bind, readLocated_outcome found, Attempt.outcome_lift_bind,
    writeLocated_outcome still]
  rfl

end Located

theorem atomicUpdate_of_misaligned (misaligned : ¬Width.word.Aligned address)
    (change : Word → Word) :
    (atomicUpdate address change).outcome machine =
      (.error (.storeAddressMisaligned address), machine) := by
  unfold atomicUpdate
  rw [Attempt.outcome_ite, if_pos misaligned]
  rfl

theorem atomicUpdate_of_fault {raised : Exception} (aligned : Width.word.Aligned address)
    (missed : machine.hart.tlb.lookup address .store = none)
    (failed : (translate address .store).outcome machine = (.error raised, after))
    (change : Word → Word) :
    (atomicUpdate address change).outcome machine = (.error raised, after) := by
  have located : (locate address .store).outcome machine = (.error raised, after) := by
    rw [locate_of_miss missed, failed]
  unfold atomicUpdate
  rw [Attempt.outcome_ite, if_neg (not_not_intro aligned), Attempt.outcome_bind_error located]

/-- An atomic operation whose address is translated for a store gives what a load gives, and does on
the bus what the load does and a store after it. -/
theorem atomicUpdate_load_store (aligned : Width.word.Aligned address)
    (missed : ∀ kind, machine.hart.tlb.lookup address kind = none) (sound : machine.bus.Sound)
    (inside : ∀ location ∈ machine.pathOf address .store, machine.bus.InMemory location)
    (translated : (translate address .store).outcome machine = (.ok physical, after))
    (apart : physical ∉ machine.pathOf address .store) (change : Word → Word) :
    ∃ value loaded stored,
      (load address .word).outcome machine = (.ok value, loaded) ∧
      (store address (change value) .word).outcome loaded = (.ok (), stored) ∧
      ((atomicUpdate address change).outcome machine).1 = .ok value ∧
      ((atomicUpdate address change).outcome machine).2.bus = stored.bus ∧
      stored.hart.EqModTlb ((atomicUpdate address change).outcome machine).2.hart := by
  obtain ⟨hart, located, cached, -⟩ := locate_of_translate (missed .store) translated
  have alignedToo := aligned_of_locate aligned located
  obtain ⟨bus, translatedLoad, sameValue, translatedStore⟩ :=
    translate_twice sound inside translated alignedToo apart
  obtain ⟨hartLoaded, locatedLoad, cachedLoad, others⟩ :=
    locate_of_translate (missed .load) translatedLoad
  let loaded : Machine := ⟨hartLoaded, (bus.load physical .word).2⟩
  have missedStore : loaded.hart.tlb.lookup address .store = none :=
    (others .store (by decide)).trans (missed .store)
  obtain ⟨hartStored, locatedStore, cachedStore, -⟩ :=
    locate_of_translate missedStore (translatedStore hartLoaded cachedLoad)
  have updates := atomicUpdate_of_locate aligned located rfl change
  have harts := (cachedLoad.trans cachedStore).of_common cached
  dsimp only at updates
  rw [← sameValue] at updates
  rw [updates]
  exact ⟨_, loaded, _, load_of_locate aligned locatedLoad rfl,
    store_of_locate aligned locatedStore rfl _, rfl, rfl, harts⟩

/-- While nothing is cached and the page tables lie in main memory, (1) an atomic operation at an
address that is not aligned is refused, and (2) so is one at an address that cannot be translated
for a store; nothing has changed then. (3) Otherwise a load from the address succeeds, and so does
a store after it of what the operation makes of the value. The atomic operation gives this value,
and leaves the bus as the two leave it, unless the word operated on is one of the page tables that
translate its own address. (4) No other exception is raised, and none that a load raises. -/
theorem atomicUpdate_exact (uncached : machine.hart.tlb = .empty) (sound : machine.bus.Sound)
    (inside : ∀ location ∈ machine.pathOf address .store, machine.bus.InMemory location)
    (change : Word → Word) :
    let updated := (atomicUpdate address change).outcome machine
    let translated := (translate address .store).outcome machine
    (¬Width.word.Aligned address →
        updated = (.error (.storeAddressMisaligned address), machine)) ∧
      (Width.word.Aligned address → ∀ raised after, translated = (.error raised, after) →
        updated = (.error (.storePageFault address), machine)) ∧
      (Width.word.Aligned address → ∀ physical after, translated = (.ok physical, after) →
        physical ∉ machine.pathOf address .store →
        ∃ value loaded stored,
          (load address .word).outcome machine = (.ok value, loaded) ∧
          (store address (change value) .word).outcome loaded = (.ok (), stored) ∧
          updated.1 = .ok value ∧ updated.2.bus = stored.bus ∧
          stored.hart.EqModTlb updated.2.hart) ∧
      ∀ raised, updated.1 = .error raised →
        raised = .storeAddressMisaligned address ∨ raised = .storePageFault address := by
  intro updated translated
  have missed : ∀ kind, machine.hart.tlb.lookup address kind = none := by
    intro kind
    rw [uncached, Tlb.lookup_empty]
  have faults : Width.word.Aligned address → ∀ raised after,
      translated = (.error raised, after) →
      updated = (.error (.storePageFault address), machine) := by
    intro aligned raised after failed
    obtain ⟨rfl, rfl⟩ := translate_error inside failed
    exact atomicUpdate_of_fault aligned (missed .store) failed change
  refine ⟨fun misaligned => atomicUpdate_of_misaligned misaligned change, faults,
    fun aligned physical after succeeded apart =>
      atomicUpdate_load_store aligned missed sound inside succeeded apart change,
    fun raised failed => ?_⟩
  by_cases aligned : Width.word.Aligned address
  · rcases ended : translated with ⟨raisedToo | physical, after⟩
    · rw [faults aligned raisedToo after ended] at failed
      cases failed
      exact .inr rfl
    · obtain ⟨hart, located, -⟩ := locate_of_translate (missed .store) ended
      have updates := congrArg Prod.fst (atomicUpdate_of_locate aligned located rfl change)
      cases updates.symm.trans failed
  · have misaligns : updated = _ := atomicUpdate_of_misaligned aligned change
    rw [misaligns] at failed
    cases failed
    exact .inl rfl

/-- Tables of both levels in the first two words, which map the second page to the first one, and a
word behind them. -/
def updatingBus : Bus := .allMemory [0x01, 0, 0, 0, 0x07, 0, 0, 0, 5, 0, 0, 0]

/-- A machine in S-mode that translates its addresses. -/
def updatingMachine : Machine where
  hart := { Hart.initial .standard with privilege := .supervisor, satp := .ofWord _ 0x80000000 }
  bus := updatingBus

/-- An addition to the word behind the tables marks the leaf as a load and a store do. -/
theorem updatingMachine_adds :
    let updated := (atomicUpdate 0x1008 (· + 3)).outcome updatingMachine
    updated.1 = .ok 5 ∧ updated.2.bus.word 8 = 8 ∧ updated.2.bus.word 4 = 0xC7 ∧
      ∃ loaded stored,
        (load 0x1008 .word).outcome updatingMachine = (.ok 5, loaded) ∧
        (store 0x1008 8 .word).outcome loaded = (.ok (), stored) ∧
        updated.2.bus = stored.bus := by
  intro updated
  have gives : updated.1 = .ok 5 := rfl
  have leads : ((translate 0x1008 .store).outcome updatingMachine).1 = .ok 8 := rfl
  have apart : 8 ∉ updatingMachine.pathOf 0x1008 .store := by decide +kernel
  have inside : ∀ location ∈ updatingMachine.pathOf 0x1008 .store,
      updatingMachine.bus.InMemory location := fun _ _ => Bus.inMemory_allMemory ..
  obtain ⟨-, -, succeeds, -⟩ := atomicUpdate_exact rfl (Bus.Sound.allMemory _) inside (· + 3)
  obtain ⟨value, loaded, stored, loads, stores, givesToo, buses, -⟩ :=
    succeeds (by decide) 8 _ (Prod.ext leads rfl) apart
  cases gives.symm.trans givesToo
  exact ⟨gives, by decide +kernel, by decide +kernel, loaded, stored, loads, stores, buses⟩

end Machine

end Rv32
