import Rv32.Proofs.PageWalk
import Rv32.Proofs.TranslationContext

/-!
# Sound machines

A machine is sound if no device is attached twice and every cached translation leads into a region
of main memory that the bus has. Nothing a machine does changes where devices are attached
(`Bus.SameMap`), and what it caches it has found on the bus, so it stays sound. To ask that a machine
is sound is therefore to ask no more than a sound bus, if it started with empty caches
(`Machine.Sound.of_reaches`).
-/

namespace Rv32

/-! ## Instructions -/

namespace Hart

/-- From one hart to the other the caches stayed or were emptied. -/
def DropsTlb (before after : Hart) : Prop := after.tlb = before.tlb ∨ after.tlb = .empty

theorem Refreshed.dropsTlb {before after : Hart} (refreshed : before.Refreshed after) :
    before.DropsTlb after := by
  rcases refreshed with emptied | ⟨kept, -⟩
  · exact .inr emptied
  · exact .inl kept

theorem dropsTlb_returnFromMachine (hart : Hart) : hart.DropsTlb hart.returnFromMachine.value := by
  rw [value_returnFromMachine]
  unfold DropsTlb
  dsimp only
  split
  · exact .inl rfl
  · exact .inr rfl

theorem dropsTlb_enterTrap (hart : Hart) (cause : Cause) :
    hart.DropsTlb (hart.enterTrap cause).value := by
  unfold DropsTlb
  rcases handled : hart.delegates cause with _ | _
  · rw [value_enterTrap_machine handled]
    dsimp only
    split
    · exact .inl rfl
    · exact .inr rfl
  · rw [value_enterTrap_supervisor handled]
    dsimp only
    split
    · exact .inl rfl
    · exact .inr rfl

end Hart

namespace Machine

variable {relation : Machine → Machine → Prop}

section Execute

variable (changes : ∀ (machine : Machine) (hart : Hart), machine.hart.DropsTlb hart →
  relation machine { machine with hart := hart })

include changes

theorem modifyHart_within {change : Hart → Hart}
    (drops : ∀ hart : Hart, hart.DropsTlb (change hart)) :
    (modifyHart change).Within relation :=
  fun machine => changes machine _ (drops machine.hart)

theorem updateHart_within {change : Hart → Logged Hart}
    (drops : ∀ hart : Hart, hart.DropsTlb (change hart).value) :
    (updateHart change).Within relation :=
  fun machine => changes machine _ (drops machine.hart)

theorem finish_within (rd : Reg) (value length : Word) : (finish rd value length).Within relation :=
  modifyHart_within changes fun _ => .inl rfl

theorem waitForInterrupt_within (length : Word) : (waitForInterrupt length).Within relation := by
  intro machine
  unfold waitForInterrupt
  rw [Effect.outcome_bind, Effect.outcome_getHart]
  dsimp only
  rw [Effect.outcome_ite, Effect.outcome_ite]
  split
  · split <;> exact changes machine _ (.inl rfl)
  · exact changes machine _ (.inl rfl)

variable (respects : Respects relation)

include respects

theorem accessCsr_within (rd : Reg) (address : CsrAddress) (reads writes : Bool)
    (change : Word → Word) (raw length : Word) :
    (accessCsr rd address reads writes change raw length).Within relation := by
  have finishes := finish_within changes
  refine .bind respects.trans (.lift respects.refl) fun hart => ?_
  split
  · rename_i register allowed found
    cases writes with
    | false => exact .lift (finishes _ _ _)
    | true =>
        refine .bind respects.trans (.lift ?_) fun _ => .lift (finishes _ _ _)
        exact updateHart_within changes fun (hart : Hart) =>
          (hart.refreshed_writeCsr register _).dropsTlb
  · exact .throw respects.refl _

/-- A relation that holds along accesses, and along changes of the hart that cache nothing, holds
along every instruction. -/
theorem execute_within (instruction : Instruction) (raw length : Word) :
    (execute instruction raw length).Within relation := by
  have finishes := finish_within changes
  have advances : ∀ distance, (modifyHart fun hart => hart.advance distance).Within relation :=
    fun _ => modifyHart_within changes fun _ => .inl rfl
  refine .bind respects.trans (.lift respects.refl) fun hart => ?_
  cases instruction with
  | opImm op rd rs1 imm => exact .lift (finishes _ _ _)
  | shiftImm op rd rs1 shamt => exact .lift (finishes _ _ _)
  | auipc rd imm => exact .lift (finishes _ _ _)
  | lui rd imm => exact .lift (finishes _ _ _)
  | opReg op rd rs1 rs2 => exact .lift (finishes _ _ _)
  | jal rd offset => exact .lift (modifyHart_within changes fun _ => .inl rfl)
  | jalr rd rs1 offset => exact .lift (modifyHart_within changes fun _ => .inl rfl)
  | branch condition rs1 rs2 offset => exact .lift (advances _)
  | load op rd rs1 offset =>
      exact .bind respects.trans (respects.load _ _) fun value => .lift (finishes _ _ _)
  | store width rs2 rs1 offset =>
      exact .bind respects.trans (respects.store _ _ _) fun _ => .lift (advances _)
  | fence predecessor successor => exact .lift (advances _)
  | fenceI => exact .lift (advances _)
  | csr op rd number rs1 => exact accessCsr_within changes respects _ _ _ _ _ _ _
  | csrImm op rd number imm => exact accessCsr_within changes respects _ _ _ _ _ _ _
  | loadReserved rd rs1 =>
      exact .bind respects.trans (respects.loadReserved _) fun value => .lift (finishes _ _ _)
  | storeConditional rd rs1 rs2 =>
      exact .bind respects.trans (respects.storeConditional _ _) fun stored =>
        .lift (finishes _ _ _)
  | amo op rd rs1 rs2 =>
      exact .bind respects.trans (respects.atomicUpdate _ _) fun old => .lift (finishes _ _ _)
  | ecall => exact .throw respects.refl _
  | ebreak => exact .throw respects.refl _
  | sret =>
      refine .bind respects.trans (respects.require _ _) fun _ => .lift ?_
      exact updateHart_within changes fun (hart : Hart) =>
        hart.refreshed_returnFromSupervisor.dropsTlb
  | mret =>
      refine .bind respects.trans (respects.require _ _) fun _ => .lift ?_
      exact updateHart_within changes Hart.dropsTlb_returnFromMachine
  | wfi =>
      refine .bind respects.trans (respects.require _ _) fun _ => .lift ?_
      exact waitForInterrupt_within changes length
  | sfenceVma rs1 rs2 =>
      refine .bind respects.trans (respects.require _ _) fun _ =>
        .bind respects.trans (.lift ?_) fun _ => .lift (advances _)
      exact updateHart_within changes fun hart => .inr rfl

/-- The same holds along the next instruction as a whole. -/
theorem executeNext_within : executeNext.Within relation := by
  refine .bind respects.trans respects.fetch fun raw => ?_
  unfold executeFetched
  split
  · exact execute_within changes respects _ _ _
  · exact .throw respects.refl _

end Execute

/-! ## The map is kept -/

/-- From one machine to the other the same kinds of devices stayed attached in the same places. -/
def MapKept (before after : Machine) : Prop := before.bus.SameMap after.bus

theorem MapKept.refl (machine : Machine) : machine.MapKept machine := Bus.SameMap.refl machine.bus

theorem MapKept.trans (first second third : Machine) (left : first.MapKept second)
    (right : second.MapKept third) : first.MapKept third :=
  Bus.SameMap.trans left right

theorem markUsed_mapKept (location : Word) (entry : PageTableEntry) (kind : AccessKind) :
    (markUsed location entry kind).Within MapKept := by
  intro machine
  unfold markUsed
  rw [Effect.outcome_ite]
  split
  · exact .refl _
  · exact machine.bus.sameMap_store ..

theorem translate_mapKept (address : Word) (kind : AccessKind) :
    (translate address kind).Within MapKept :=
  translate_within .refl .trans (fun _ machine => machine.bus.sameMap_load ..)
    (fun _ _ => markUsed_mapKept _) address kind

theorem readLocated_mapKept (physical : Word) (region? : Option Region) (width : Width) :
    (readLocated physical region? width).Within MapKept := by
  intro machine
  cases region? with
  | none => exact .refl _
  | some region => exact machine.bus.sameMap_read ..

theorem writeLocated_mapKept (physical : Word) (region? : Option Region) (value : Word)
    (width : Width) : (writeLocated physical region? value width).Within MapKept := by
  intro machine
  cases region? with
  | none => exact .refl _
  | some region =>
      unfold writeLocated MapKept
      rw [Effect.outcome_modifyBus]
      dsimp only
      split
      · exact .trans (machine.bus.sameMap_write ..) (Bus.sameMap_markDirty ..)
      · exact machine.bus.sameMap_write ..

end Machine

/-! ## What is cached -/

namespace Tlb

/-- All entries in the caches have a property. -/
def All (property : AccessKind → TlbEntry → Prop) (tlb : Tlb) : Prop :=
  ∀ kind page entry, (tlb.table kind).get page = some entry → property kind entry

namespace All

variable {property other : AccessKind → TlbEntry → Prop} {tlb : Tlb}

theorem empty (property : AccessKind → TlbEntry → Prop) : Tlb.empty.All property := by
  intro kind page entry cached
  rw [table_empty, TlbTable.get_empty] at cached
  cases cached

theorem mono (all : tlb.All property)
    (implies : ∀ kind entry, property kind entry → other kind entry) : tlb.All other :=
  fun kind page entry cached => implies kind entry (all kind page entry cached)

/-- What is inserted must have the property itself. -/
theorem insert (all : tlb.All property) {address physical : Word} {region : Region}
    {kind : AccessKind}
    (new : region.isMemory = true → property kind ⟨pageOf address, pageOf physical, region⟩) :
    (tlb.insert address physical region kind).All property := by
  intro table page entry cached
  rw [table_insert] at cached
  split at cached
  · rename_i inserted
    obtain ⟨rfl, isMemory⟩ := inserted
    rw [TlbTable.get_set] at cached
    split at cached
    · cases cached
      exact new isMemory
    · exact all kind page entry cached
  · exact all table page entry cached

end All

end Tlb

/-! ## Soundness -/

/-- A cached translation leads into a region of main memory that the bus has. -/
def Bus.Caches (bus : Bus) (_ : AccessKind) (entry : TlbEntry) : Prop :=
  entry.region.isMemory = true ∧ bus.HasRegion entry.region

namespace Machine

/-- No device is attached twice, and what is cached leads into main memory. Every machine that is
reached on a sound bus is sound (`Sound.of_reaches`). -/
structure Sound (machine : Machine) : Prop where
  bus : machine.bus.Sound
  cached : machine.hart.tlb.All machine.bus.Caches

namespace Sound

theorem initial (config : HartConfig) {bus : Bus} (sound : bus.Sound) :
    (Machine.initial config bus).Sound :=
  ⟨sound, .empty _⟩

/-- Nothing is lost when the map is kept and nothing new is cached. -/
theorem keep {before after : Machine} (sound : before.Sound) (map : before.MapKept after)
    (drops : before.hart.DropsTlb after.hart) : after.Sound := by
  refine ⟨map.sound sound.bus, ?_⟩
  rcases drops with kept | emptied
  · rw [kept]
    exact sound.cached.mono fun kind entry cached => ⟨cached.1, map.hasRegion cached.2⟩
  · rw [emptied]
    exact .empty _

theorem respects : Respects fun before after => before.Sound → after.Sound where
  refl := fun _ => id
  trans := fun _ _ _ left right sound => right (left sound)
  locate := fun address kind => by
    refine locate_within (fun _ => id) (fun _ _ _ left right sound => right (left sound))
      (fun machine sound => ?_) fun machine physical region found sound => ?_
    · refine sound.keep (translate_mapKept address kind machine) (.inl ?_)
      exact congrArg Hart.tlb (translate_hartKept address kind machine)
    · refine ⟨sound.bus, sound.cached.insert fun memory => ⟨memory, ?_⟩⟩
      exact (Bus.findRegion_eq_some_iff.1 found).1
  read := fun physical region? width machine sound => by
    refine sound.keep (readLocated_mapKept physical region? width machine) (.inl ?_)
    exact congrArg Hart.tlb (readLocated_hartKept physical region? width machine)
  write := fun physical region? value width machine sound => by
    refine sound.keep (writeLocated_mapKept physical region? value width machine) (.inl ?_)
    exact congrArg Hart.tlb (writeLocated_hartKept physical region? value width machine)
  reserve := fun _ _ sound => ⟨sound.bus, sound.cached⟩

theorem executeNext {machine : Machine} (sound : machine.Sound) :
    (Machine.executeNext.outcome machine).2.Sound := by
  have within : Machine.executeNext.Within fun before after => before.Sound → after.Sound :=
    executeNext_within (fun machine hart drops sound => sound.keep (.refl machine) drops) respects
  exact within machine sound

theorem counted {machine : Machine} (sound : machine.Sound) : machine.counted.Sound :=
  ⟨sound.bus, sound.cached⟩

theorem trapped {machine : Machine} (sound : machine.Sound) (cause : Cause) :
    (machine.trapped cause).Sound :=
  sound.keep (.refl machine) (machine.hart.dropsTlb_enterTrap cause)

/-- A turn keeps a machine sound. -/
theorem cycle {machine : Machine} (sound : machine.Sound) :
    (Machine.cycle.outcome machine).2.Sound := by
  have executed := sound.counted.executeNext
  have turns := cycle_turns machine
  rcases ended : Machine.cycle.outcome machine with ⟨cost, after⟩
  rw [ended] at turns
  cases turns with
  | interrupted pending => exact sound.trapped _
  | completed none ran =>
      rw [ran] at executed
      exact executed
  | failed none ran =>
      rw [ran] at executed
      exact executed.trapped _

/-- Every operation keeps a machine sound. -/
theorem apply {machine : Machine} (sound : machine.Sound) (operation : Operation) :
    (operation.apply machine).Sound := by
  cases operation with
  | instruction => exact sound.executeNext
  | trap cause => exact sound.trapped cause
  | writeCsr address value =>
      exact sound.keep (.refl machine) (Operation.refreshed_writeAddress ..).dropsTlb
  | reset => exact sound.keep (.refl machine) (.inr rfl)
  | resetHard => exact sound.keep (.refl machine) (.inr rfl)
  | restore snapshot => exact sound.keep (.refl machine) (Operation.refreshed_restore ..).dropsTlb

/-- A machine that started with empty caches on a sound bus, such as one that was built by attaching
devices, stays sound. -/
theorem of_reaches {admits : Operation → Machine → Prop} {config : HartConfig} {bus : Bus}
    {machine : Machine} (sound : bus.Sound)
    (reached : (Machine.initial config bus).Reaches admits machine) : machine.Sound := by
  induction reached with
  | refl => exact .initial config sound
  | step operation reached admitted ih => exact ih.apply operation

end Sound

/-! ## Where accesses lead -/

section Locate

variable {machine after : Machine} {address physical : Word} {region : Region} {kind : AccessKind}

theorem locate_of_hit (hit : machine.hart.tlb.lookup address kind = some (physical, region)) :
    (locate address kind).outcome machine = (.ok (physical, some region), machine) := by
  unfold locate
  rw [Attempt.outcome_lift_bind, Effect.outcome_getHart]
  dsimp only
  rw [hit]
  rfl

theorem locate_of_miss (miss : machine.hart.tlb.lookup address kind = none) :
    (locate address kind).outcome machine =
      match (translate address kind).outcome machine with
      | (.ok physical, middle) =>
        match middle.bus.findRegion physical with
        | some region =>
          (.ok (physical, some region),
            { middle with
              hart :=
                { middle.hart with
                  tlb := middle.hart.tlb.insert address physical region kind } })
        | none => (.ok (physical, none), middle)
      | (.error raised, middle) => (.error raised, middle) := by
  unfold locate
  rw [Attempt.outcome_lift_bind, Effect.outcome_getHart]
  dsimp only
  rw [miss]
  dsimp only
  rw [Attempt.outcome_bind]
  rcases (translate address kind).outcome machine with ⟨raised | physical, middle⟩
  · rfl
  · dsimp only
    rw [Attempt.outcome_lift_bind, Effect.outcome_findRegion]
    dsimp only
    cases middle.bus.findRegion physical <;> rfl

/-- An address that is neither cached nor to be translated is a physical one. -/
theorem locate_of_bypasses (miss : machine.hart.tlb.lookup address kind = none)
    (bypasses : Bypasses machine.hart kind)
    (found : machine.bus.findRegion address = some region) :
    (locate address kind).outcome machine =
      (.ok (address, some region),
        { machine with
          hart :=
            { machine.hart with
              tlb := machine.hart.tlb.insert address address region kind } }) := by
  rw [locate_of_miss miss, translate_of_bypasses bypasses]
  dsimp only
  rw [found]

/-- What an access finds is the region of its physical address. -/
theorem Sound.findRegion_of_locate (sound : machine.Sound)
    (located : (locate address kind).outcome machine = (.ok (physical, some region), after)) :
    after.bus.findRegion physical = some region := by
  rcases looked : machine.hart.tlb.lookup address kind with _ | ⟨cachedPhysical, cachedRegion⟩
  · rw [locate_of_miss looked] at located
    split at located
    · rename_i found middle translated
      split at located
      · rename_i foundRegion isRegion
        cases located
        exact isRegion
      · cases located
    · cases located
  · rw [locate_of_hit looked] at located
    cases located
    obtain ⟨entry, cached, -, rfl, -, contains⟩ := Tlb.lookup_eq_some_iff.1 looked
    exact Bus.findRegion_eq_some_iff.2 ⟨(sound.cached _ _ _ cached).2, contains⟩

/-- To locate an address changes no more on the bus than to mark its leaf. -/
theorem locate_bus
    (inside : ∀ location ∈ machine.pathOf address kind, machine.bus.InMemory location) :
    ((locate address kind).outcome machine).2.bus = machine.bus ∨
      ∃ leaf, machine.leafOf address kind = some leaf ∧
        ((locate address kind).outcome machine).2.bus = machine.bus.mark leaf kind := by
  rcases looked : machine.hart.tlb.lookup address kind with _ | ⟨cachedPhysical, cachedRegion⟩
  · rw [locate_of_miss looked, translate_outcome inside]
    by_cases bypasses : Bypasses machine.hart kind
    · rw [if_pos bypasses]
      dsimp only
      split <;> exact .inl rfl
    · rw [if_neg bypasses]
      cases isLeaf : machine.leafOf address kind with
      | none => exact .inl rfl
      | some leaf =>
          dsimp only
          split <;> exact .inr ⟨leaf, rfl, rfl⟩
  · rw [locate_of_hit looked]
    exact .inl rfl

/-- The parcel that is read where the address of a fetch was located. -/
def parcelAt (bus : Bus) (address : Word) (place : Word × Option Region) : Except Exception Half :=
  match place with
  | (physical, some region) =>
    if region.isMemory then
      .ok ((bus.read region (region.range.offsetOf physical) .half).1.setWidth 16)
    else .error (.instructionAccessFault address)
  | (_, none) => .error (.instructionAccessFault address)

/-- To fetch a parcel changes nothing beyond what it takes to locate it. -/
theorem fetchParcel_outcome (sound : machine.Sound) (address : Word) :
    (fetchParcel address).outcome machine =
      (((locate address .fetch).outcome machine).1.bind
          (parcelAt ((locate address .fetch).outcome machine).2.bus address),
        ((locate address .fetch).outcome machine).2) := by
  unfold fetchParcel
  rw [Attempt.outcome_bind]
  rcases located : (locate address .fetch).outcome machine with
    ⟨raised | ⟨physical, region?⟩, after⟩
  · rfl
  · cases region? with
    | none => rfl
    | some region =>
        have found := sound.findRegion_of_locate located
        unfold Except.bind parcelAt
        dsimp only
        rw [Attempt.outcome_ite]
        split
        · rename_i memory
          obtain ⟨ram, isRam⟩ := (Bus.findRegion_eq_some_iff.1 found).1.backed memory
          rw [Attempt.outcome_lift_bind, Effect.outcome_readRegion, Bus.read_ram isRam]
          rfl
        · rfl

/-- A parcel in main memory is read where its address was located. -/
theorem fetchParcel_of_located {ram : Ram}
    (located : (locate address .fetch).outcome machine = (.ok (physical, some region), after))
    (memory : region.isMemory = true)
    (isRam : after.bus.device? region.device = some (.ram ram)) :
    (fetchParcel address).outcome machine =
      (.ok ((ram.read (region.range.offsetOf physical) .half).setWidth 16), after) := by
  unfold fetchParcel
  rw [Attempt.outcome_bind_ok located]
  dsimp only
  rw [Attempt.outcome_ite, if_pos memory, Attempt.outcome_lift_bind, Effect.outcome_readRegion,
    Bus.read_ram isRam]
  rfl

theorem fetch_of_parcel {parcel : Half} (aligned : Width.half.Aligned machine.hart.pc)
    (compressed : Instruction.isCompressed parcel = true)
    (found : (fetchParcel machine.hart.pc).outcome machine = (.ok parcel, after)) :
    fetch.outcome machine = (.ok (parcel.setWidth 32), after) := by
  unfold fetch
  rw [Attempt.outcome_lift_bind, Effect.outcome_getHart]
  dsimp only
  rw [Attempt.outcome_ite, if_neg (not_not_intro aligned), Attempt.outcome_bind_ok found,
    Attempt.outcome_ite, if_pos compressed]
  rfl

theorem fetch_of_parcels {middle : Machine} {low high : Half}
    (aligned : Width.half.Aligned machine.hart.pc)
    (first : (fetchParcel machine.hart.pc).outcome machine = (.ok low, middle))
    (long : ¬ Instruction.isCompressed low = true)
    (second : (fetchParcel (machine.hart.pc + 2)).outcome middle = (.ok high, after)) :
    fetch.outcome machine = (.ok (high ++ low), after) := by
  unfold fetch
  rw [Attempt.outcome_lift_bind, Effect.outcome_getHart]
  dsimp only
  rw [Attempt.outcome_ite, if_neg (not_not_intro aligned), Attempt.outcome_bind_ok first,
    Attempt.outcome_ite, if_neg long, Attempt.outcome_bind_ok second]
  rfl

end Locate

end Machine

end Rv32
