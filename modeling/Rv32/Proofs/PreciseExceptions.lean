import Rv32.Proofs.Soundness

/-!
# Precise exceptions

An instruction that raises an exception leaves everything as it was before, so that a handler can
restart it. Three things may remain of it: cached translations, accessed bits in the entries that
translate the addresses it was fetched from, and the end of the reservation if it is a conditional
store. `Machine.precise_exceptions` says so for every machine whose page tables lie in main memory.
-/

namespace Rv32

/-! ## Memory in which accessed bits were set -/

namespace Bus

/-- A byte of a device is the low byte of the entry at one of some locations. -/
def IsLowByte (bus : Bus) (locations : Word → Prop) (number index : Nat) : Prop :=
  ∃ location region, locations location ∧ bus.findRegion location = some region ∧
    region.device = number ∧ (region.range.offsetOf location).toNat = index

/-- From one bus to the other nothing was read from or written to a device of input and output, and
main memory changed only where the accessed bits of the entries at some locations were set. -/
structure AccessedOnly (locations : Word → Prop) (before after : Bus) : Prop where
  ranges : after.ranges = before.ranges
  accesses : after.accesses = before.accesses
  others : ∀ number, (∀ ram, before.device? number ≠ some (.ram ram)) →
    after.device? number = before.device? number
  memories : ∀ number ram, before.device? number = some (.ram ram) →
    ∃ ram', after.device? number = some (.ram ram') ∧ ram'.size = ram.size ∧
      ∀ index, ram'.byte index = ram.byte index ∨
        before.IsLowByte locations number index ∧ ram'.byte index = ram.byte index ||| 0x40

namespace AccessedOnly

variable {locations others : Word → Prop} {before middle after : Bus}

theorem refl (locations : Word → Prop) (bus : Bus) : bus.AccessedOnly locations bus where
  ranges := rfl
  accesses := rfl
  others := fun _ _ => rfl
  memories := fun _ ram isRam => ⟨ram, isRam, rfl, fun _ => .inl rfl⟩

theorem sameMap (only : before.AccessedOnly locations after) : before.SameMap after := by
  refine ⟨only.ranges, fun number => ?_⟩
  by_cases memory : ∃ ram, before.device? number = some (.ram ram)
  · obtain ⟨ram, isRam⟩ := memory
    obtain ⟨ram', isRam', -⟩ := only.memories number ram isRam
    rw [isRam, isRam']
    rfl
  · rw [only.others number fun ram isRam => memory ⟨ram, isRam⟩]

theorem isLowByte (only : before.AccessedOnly others after) {number index : Nat}
    (low : after.IsLowByte locations number index) : before.IsLowByte locations number index := by
  obtain ⟨location, region, isLocation, found, device, offset⟩ := low
  have foundBefore := (only.sameMap.findRegion_eq location).symm.trans found
  exact ⟨location, region, isLocation, foundBefore, device, offset⟩

theorem mono (only : before.AccessedOnly locations after)
    (implies : ∀ location, locations location → others location) :
    before.AccessedOnly others after := by
  refine ⟨only.ranges, only.accesses, only.others, fun number ram isRam => ?_⟩
  obtain ⟨ram', isRam', size, bytes⟩ := only.memories number ram isRam
  refine ⟨ram', isRam', size, fun index => (bytes index).imp_right ?_⟩
  rintro ⟨⟨location, region, isLocation, rest⟩, set⟩
  exact ⟨⟨location, region, implies location isLocation, rest⟩, set⟩

theorem trans (left : before.AccessedOnly locations middle)
    (right : middle.AccessedOnly locations after) : before.AccessedOnly locations after := by
  refine ⟨right.ranges.trans left.ranges, right.accesses.trans left.accesses,
    fun number noRam => ?_, fun number ram isRam => ?_⟩
  · have same := left.others number noRam
    rw [← same] at noRam
    exact (right.others number noRam).trans same
  · obtain ⟨ram', isRam', size, bytes⟩ := left.memories number ram isRam
    obtain ⟨ram'', isRam'', size', bytes'⟩ := right.memories number ram' isRam'
    refine ⟨ram'', isRam'', size'.trans size, fun index => ?_⟩
    rcases bytes' index with same' | ⟨low', set'⟩
    · rw [same']
      exact bytes index
    · refine .inr ⟨left.isLowByte low', ?_⟩
      rcases bytes index with same | ⟨-, set⟩
      · rw [set', same]
      · rw [set', set, BitVec.or_assoc, BitVec.or_self]

/-- A fetch marks its leaf as accessed. -/
theorem of_mark {bus : Bus} {leaf : Leaf} (inside : bus.InMemory leaf.location)
    (isEntry : leaf.entry = bus.entryAt leaf.location) :
    bus.AccessedOnly (· = leaf.location) (bus.mark leaf .fetch) := by
  unfold mark
  split
  · exact .refl _ bus
  · obtain ⟨region, ram, found, -, isRam⟩ := inside.backed
    have stored := store_ram found isRam (leaf.entry.used .fetch).bits .word
    refine ⟨stored.ranges, stored.accesses, fun number noRam => ?_, fun number other isOther => ?_⟩
    · exact stored.others number fun same => noRam ram (same ▸ isRam)
    · by_cases same : region.device = number
      · subst same
        rw [isRam] at isOther
        cases isOther
        refine ⟨_, stored.written, Ram.size_write .., fun index => ?_⟩
        have isWord : leaf.entry.bits = ram.read (region.range.offsetOf leaf.location) .word :=
          (congrArg PageTableEntry.bits isEntry).trans (word_of_ram found isRam)
        unfold PageTableEntry.used
        dsimp only
        rw [Ram.byte_markDirty, isWord,
          Ram.byte_write_or _ _ (PageTableEntry.byte_usageBits .fetch)]
        by_cases first :
            index = (region.range.offsetOf leaf.location).toNat ∧ index < ram.size
        · rw [if_pos first]
          exact .inr ⟨⟨leaf.location, region, rfl, found, rfl, first.1.symm⟩, rfl⟩
        · rw [if_neg first]
          exact .inl rfl
      · exact ⟨other, (stored.others number same).trans isOther, rfl, fun _ => .inl rfl⟩

end AccessedOnly

end Bus

namespace Machine

/-! ## Fetching -/

/-- The addresses that the next instruction is fetched from: that of its first parcel, and that of
the second one if the first is not an instruction of its own. -/
def fetchedFrom (machine : Machine) : List Word :=
  match ((fetchParcel machine.hart.pc).outcome machine).1 with
  | .ok low =>
    if Instruction.isCompressed low then [machine.hart.pc]
    else [machine.hart.pc, machine.hart.pc + 2]
  | .error _ => [machine.hart.pc]

/-- An entry of the page tables that translates an address of the next instruction. -/
def IsFetchLeaf (machine : Machine) (location : Word) : Prop :=
  ∃ address ∈ machine.fetchedFrom, ∃ leaf, machine.leafOf address .fetch = some leaf ∧
    location = leaf.location

/-- The words of all page tables that the hart may walk lie in main memory. -/
def TablesInMemory (machine : Machine) : Prop :=
  machine.hart.satp.translates = true →
    ∀ address, ∀ location ∈ machine.bus.walkPath address 2 (rootTable machine.hart),
      machine.bus.InMemory location

theorem TablesInMemory.path {machine : Machine} (tables : machine.TablesInMemory) (address : Word)
    (kind : AccessKind) :
    ∀ location ∈ machine.pathOf address kind, machine.bus.InMemory location := by
  unfold pathOf
  split
  · exact nofun
  · rename_i walks
    refine tables ?_ address
    cases translates : machine.hart.satp.translates with
    | false => exact absurd (.inr translates) walks
    | true => rfl

/-- What fetching may have done to a machine when it comes to an end, successful or not. -/
structure Fetched (leaves : Word → Prop) (before after : Machine) : Prop where
  sound : after.Sound
  hart : before.hart.EqModTlb after.hart
  ages : before.bus.Ages after.bus
  accessed : before.bus.AccessedOnly leaves after.bus

namespace Fetched

variable {leaves others : Word → Prop} {first second third : Machine}

theorem refl {machine : Machine} (sound : machine.Sound) (leaves : Word → Prop) :
    machine.Fetched leaves machine :=
  ⟨sound, .refl _, .refl _, .refl _ _⟩

theorem mono (fetched : first.Fetched leaves second)
    (implies : ∀ location, leaves location → others location) : first.Fetched others second :=
  ⟨fetched.sound, fetched.hart, fetched.ages, fetched.accessed.mono implies⟩

theorem trans (left : first.Fetched leaves second) (right : second.Fetched leaves third) :
    first.Fetched leaves third :=
  ⟨right.sound, left.hart.trans right.hart, left.ages.trans right.ages,
    left.accessed.trans right.accessed⟩

/-- The tables stay in main memory. -/
theorem tables (fetched : first.Fetched leaves second) (inside : first.TablesInMemory) :
    second.TablesInMemory := by
  obtain ⟨tlb, same⟩ := fetched.hart
  intro translates address location member
  rw [same] at translates member
  have path := inside translates address
  have samePath : second.bus.walkPath address 2 (rootTable first.hart) =
      first.bus.walkPath address 2 (rootTable first.hart) :=
    Bus.walkPath_of_gains fun place onPath => fetched.ages.gains place (path place onPath)
      (Bus.aligned_of_mem_walkPath (PageTableEntry.aligned_pageBase _) onPath)
  have onPath : location ∈ first.bus.walkPath address 2 (rootTable first.hart) := samePath ▸ member
  exact fetched.ages.map.inMemory (path location onPath)

end Fetched

/-- A parcel leaves a mark in its own leaf at most. -/
theorem fetchParcel_fetched {machine : Machine} (sound : machine.Sound)
    (tables : machine.TablesInMemory) (address : Word) :
    machine.Fetched (fun location => ∃ leaf, machine.leafOf address .fetch = some leaf ∧
      location = leaf.location) ((fetchParcel address).outcome machine).2 := by
  have inside := tables.path address .fetch
  have kept : ((fetchParcel address).outcome machine).2.Sound :=
    fetchParcel_within Sound.respects.refl Sound.respects.trans
      (Sound.respects.locate · .fetch) Sound.respects.read address machine sound
  have hart := fetchParcel_within .refl .trans (locate_hartCached · .fetch)
    (fun physical region? width machine =>
      (readLocated_hartKept physical region? width machine).cached) address machine
  have bus := congrArg (fun outcome => outcome.2.bus) (fetchParcel_outcome sound address)
  rcases locate_bus inside with same | ⟨leaf, isLeaf, marked⟩
  · rw [← bus] at same
    refine ⟨kept, hart, ?_, ?_⟩
    · rw [same]
      exact .refl _
    · rw [same]
      exact .refl _ _
  · rw [← bus] at marked
    obtain ⟨member, aligned, isEntry, wellFormed, -, -⟩ := leafOf_eq_some isLeaf
    have insideLeaf := inside _ member
    refine ⟨kept, hart, ?_, ?_⟩
    · rw [marked]
      exact Bus.ages_mark .fetch insideLeaf isEntry wellFormed sound.bus aligned
    · rw [marked]
      refine (Bus.AccessedOnly.of_mark insideLeaf isEntry).mono fun location same => ?_
      exact ⟨leaf, isLeaf, same⟩

theorem pc_mem_fetchedFrom (machine : Machine) : machine.hart.pc ∈ machine.fetchedFrom := by
  unfold fetchedFrom
  split
  · split
    · exact List.mem_cons_self
    · exact List.mem_cons_self
  · exact List.mem_cons_self

/-- The first parcel alone has marked no more than the leaves of the instruction. -/
theorem Fetched.of_parcel {machine middle : Machine}
    (first : machine.Fetched (fun location => ∃ leaf,
      machine.leafOf machine.hart.pc .fetch = some leaf ∧ location = leaf.location) middle) :
    machine.Fetched machine.IsFetchLeaf middle :=
  first.mono fun _ isLeaf => ⟨machine.hart.pc, pc_mem_fetchedFrom machine, isLeaf⟩

/-- The second parcel is translated by the leaf that would have translated it before the first. -/
theorem Fetched.next_parcel {machine middle : Machine} {low : Half}
    (tables : machine.TablesInMemory) (first : machine.Fetched machine.IsFetchLeaf middle)
    (parcel : ((fetchParcel machine.hart.pc).outcome machine).1 = .ok low)
    (long : ¬ Instruction.isCompressed low) :
    machine.Fetched machine.IsFetchLeaf
      ((fetchParcel (machine.hart.pc + 2)).outcome middle).2 := by
  have second := fetchParcel_fetched first.sound (first.tables tables) (machine.hart.pc + 2)
  refine first.trans (second.mono fun location isLeaf => ?_)
  obtain ⟨leaf, isLeaf, same⟩ := isLeaf
  have aged := leafOf_of_gains (gains_of_ages first.ages (tables.path (machine.hart.pc + 2) .fetch))
    (first.hart.access.program.translationContext .fetch)
  rw [aged] at isLeaf
  obtain ⟨leafBefore, isLeafBefore, rfl⟩ := Option.map_eq_some_iff.1 isLeaf
  refine ⟨machine.hart.pc + 2, ?_, leafBefore, isLeafBefore, same⟩
  unfold fetchedFrom
  rw [parcel]
  dsimp only
  rw [if_neg long]
  exact List.mem_cons_of_mem _ List.mem_cons_self

/-- Fetching the next instruction leaves marks in its own leaves at most. -/
theorem fetch_fetched {machine : Machine} (sound : machine.Sound)
    (tables : machine.TablesInMemory) :
    machine.Fetched machine.IsFetchLeaf (fetch.outcome machine).2 := by
  have first := (fetchParcel_fetched sound tables machine.hart.pc).of_parcel
  unfold fetch
  rw [Attempt.outcome_lift_bind, Effect.outcome_getHart]
  dsimp only
  rw [Attempt.outcome_ite]
  split
  · exact .refl sound _
  · rw [Attempt.outcome_bind]
    rcases parcel : (fetchParcel machine.hart.pc).outcome machine with ⟨raised | low, middle⟩
    · rw [parcel] at first
      exact first
    · rw [parcel] at first
      dsimp only
      rw [Attempt.outcome_ite]
      split
      · exact first
      · rename_i long
        have second := first.next_parcel tables (congrArg Prod.fst parcel) long
        rw [Attempt.outcome_bind]
        rcases rest : (fetchParcel (machine.hart.pc + 2)).outcome middle with
          ⟨raised | high, after⟩
        · rw [rest] at second
          exact second
        · rw [rest] at second
          exact second

/-! ## Failing -/

/-- An instruction that raises an exception reaches the bus no further than its fetch. -/
theorem accessedOnly_of_error {machine after : Machine} {raised : Exception}
    (sound : machine.Sound) (tables : machine.TablesInMemory)
    (failed : executeNext.outcome machine = (.error raised, after)) :
    machine.bus.AccessedOnly machine.IsFetchLeaf after.bus := by
  have fetched := fetch_fetched sound tables
  rcases executeNext_error failed with fetchFailed | ⟨raw, wasFetched⟩ |
    ⟨raw, instruction, length, middle, wasFetched, decoded, ran⟩
  · rw [fetchFailed] at fetched
    exact fetched.accessed
  · rw [wasFetched] at fetched
    exact fetched.accessed
  · rw [wasFetched] at fetched
    obtain ⟨start, released, ended⟩ := execute_error ran
    have sameBus : start.bus = middle.bus := by
      rcases released with rfl | ⟨-, rfl⟩
      · rfl
      · rfl
    have startTables : start.TablesInMemory := by
      have kept := fetched.tables tables
      rcases released with rfl | ⟨-, rfl⟩
      · exact kept
      · exact kept
    have unchanged : after.bus = start.bus := by
      rcases ended with rfl | ⟨address, kind, faulted⟩
      · rfl
      · rw [(translate_error (startTables.path address kind) faulted).2]
    rw [unchanged, sameBus]
    exact fetched.accessed

/-- An instruction that raises an exception changes nothing in the hart but cached translations,
except that a conditional store ends the reservation. It reaches no device of input and output, and
in memory it sets at most the accessed bits of the entries that translate its own addresses. On a
sound bus every machine that is reached is sound (`Sound.of_reaches`). -/
theorem precise_exceptions {machine after : Machine} {raised : Exception}
    (sound : machine.Sound) (tables : machine.TablesInMemory)
    (failed : executeNext.outcome machine = (.error raised, after)) :
    (∃ tlb reservation,
      after.hart = { machine.hart with tlb := tlb, reservation := reservation } ∧
      (reservation = machine.hart.reservation ∨
        reservation = none ∧
          ∃ rd rs1 rs2, machine.nextInstruction = some (.storeConditional rd rs1 rs2))) ∧
    machine.bus.AccessedOnly machine.IsFetchLeaf after.bus := by
  obtain ⟨⟨tlb, reservation, same⟩, released⟩ := executeNext_error_hart failed
  rw [same] at released
  exact ⟨⟨tlb, reservation, same, released⟩, accessedOnly_of_error sound tables failed⟩

/-- An entry that lets S-mode execute the lowest four megabytes, and a breakpoint behind it. -/
def breakpointBus : Bus := .allMemory [0x0B, 0, 0, 0, 0x73, 0, 0x10, 0]

/-- A machine in S-mode that walks the table at address 0 to fetch the breakpoint. -/
def breakpointMachine : Machine where
  hart := { Hart.initial ⟨4, 0⟩ with privilege := .supervisor, satp := .ofWord _ 0x80000000 }
  bus := breakpointBus

theorem sound_breakpointMachine : breakpointMachine.Sound := ⟨.allMemory _, .empty _⟩

/-- The breakpoint is raised after its fetch has marked the entry. -/
theorem breakpointMachine_precise :
    (executeNext.outcome breakpointMachine).1 = .error .breakpoint ∧
      breakpointBus.word 0 = 0x0B ∧
      (executeNext.outcome breakpointMachine).2.bus.word 0 = 0x4B ∧
      breakpointBus.AccessedOnly breakpointMachine.IsFetchLeaf
        (executeNext.outcome breakpointMachine).2.bus := by
  have raised : (executeNext.outcome breakpointMachine).1 = .error .breakpoint := rfl
  have tables : breakpointMachine.TablesInMemory := fun _ _ _ _ => Bus.inMemory_allMemory ..
  refine ⟨raised, by decide +kernel, by decide +kernel, ?_⟩
  exact (precise_exceptions sound_breakpointMachine tables (Prod.ext raised rfl)).2

end Machine

end Rv32
