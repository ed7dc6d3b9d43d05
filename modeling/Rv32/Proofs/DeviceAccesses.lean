import Rv32.Proofs.CycleAccounting
import Rv32.Proofs.IoDevices
import Rv32.Proofs.PreciseExceptions
import Rv32.Proofs.Transfers

/-!
# What devices of input and output see

`Instruction.deviceAccesses` lists the accesses to devices of input and output that an instruction
makes: a load one read, a store one write, an atomic operation a read and then a write, at the
physical address of the instruction, if that lies in the range of such a device.

Fetches and page tables, as long as these lie in main memory, reach no such device, whatever is
cached, since only main memory is. So in a turn the devices serve the accesses of the instruction
that is executed, and none if there is none: `Machine.device_accesses_exact`, and for runs
`Machine.serves_run`.
-/

namespace Rv32

/-! ## The accesses of an instruction -/

/-- The accesses that an instruction makes at its physical address, in order, if it started in
`start`. A write gives the low bytes of the value. -/
def Instruction.deviceAccesses (instruction : Instruction) (start : Hart) (physical : Word)
    (bus : Bus) : List DeviceAccess :=
  match bus.ioRegion? physical with
  | none => []
  | some region =>
    let offset := region.range.offsetOf physical
    let answer (width : Width) : Word := (bus.read region offset width).1
    let read (width : Width) : DeviceAccess :=
      ⟨region.device, .read, offset, width, answer width⟩
    let write (width : Width) (value : Word) : DeviceAccess :=
      ⟨region.device, .write, offset, width, value &&& width.mask⟩
    match instruction with
    | .load op _ _ _ => [read op.width]
    | .store width rs2 _ _ => [write width (start.x rs2)]
    | .loadReserved _ _ => [read .word]
    | .storeConditional _ _ rs2 =>
      if start.reservation = some physical then [write .word (start.x rs2)] else []
    | .amo op _ _ rs2 => [read .word, write .word (op.eval (answer .word) (start.x rs2))]
    | _ => []

namespace Bus

variable {before after : Bus} {locations : Word → Prop}

/-- Marks of fetches reach no device of input and output. -/
theorem AccessedOnly.serves (only : before.AccessedOnly locations after) :
    before.Serves [] after := by
  refine ⟨only.sameMap, only.accesses, fun number device isDevice io => ?_⟩
  refine (only.others number fun ram isRam => ?_).trans isDevice
  rw [isDevice] at isRam
  cases isRam
  cases io

/-- What happens on the bus for an instruction is what its device serves. -/
theorem serves_onBus (instruction : Instruction) (start : Hart) (address : Word) (bus : Bus) :
    bus.Serves (instruction.deviceAccesses start address bus)
      (instruction.onBus start address bus) := by
  unfold Instruction.deviceAccesses
  rcases isIo : bus.ioRegion? address with _ | region
  · have reads := serves_load_elsewhere isIo
    have writes := serves_store_elsewhere isIo
    cases instruction with
    | load op rd rs1 offset => exact reads _
    | store width rs2 rs1 offset => exact writes _ _
    | loadReserved rd rs1 => exact reads _
    | storeConditional rd rs1 rs2 =>
        unfold Instruction.onBus
        dsimp only
        split
        · exact writes _ _
        · exact .refl bus
    | amo op rd rs1 rs2 =>
        have still := (ioRegion?_eq (bus.sameMap_load address .word) address).trans isIo
        exact (reads .word).trans (serves_store_elsewhere still _ _)
    | _ => exact .refl bus
  · have reads := serves_load isIo
    have writes := serves_store isIo
    have answers : ∀ width, (bus.load address width).1 =
        (bus.read region (region.range.offsetOf address) width).1 := by
      intro width
      unfold load
      rw [(ioRegion?_eq_some_iff.1 isIo).1]
    simp only [answers] at reads
    dsimp only
    cases instruction with
    | load op rd rs1 offset => exact reads _
    | store width rs2 rs1 offset => exact writes _ _
    | loadReserved rd rs1 => exact reads _
    | storeConditional rd rs1 rs2 =>
        unfold Instruction.onBus
        dsimp only
        split
        · exact writes _ _
        · exact .refl bus
    | amo op rd rs1 rs2 =>
        have still := (ioRegion?_eq (bus.sameMap_load address .word) address).trans isIo
        rw [← answers]
        exact (serves_load isIo .word).trans (serves_store still _ _)
    | _ => exact .refl bus

/-- What devices have not noticed changes none of their answers. -/
theorem Serves.deviceAccesses_eq (nothing : before.Serves [] after) {start other : Hart}
    (registers : other.registers = start.registers)
    (reservation : other.reservation = start.reservation) (instruction : Instruction)
    (address : Word) :
    instruction.deviceAccesses other address after =
      instruction.deviceAccesses start address before := by
  have values : other.x = start.x := by
    unfold Hart.x
    rw [registers]
  unfold Instruction.deviceAccesses
  rw [ioRegion?_eq nothing.map, values, reservation]
  rcases isIo : before.ioRegion? address with _ | region
  · rfl
  · obtain ⟨device, isDevice, io⟩ := device_of_ioRegion? isIo
    have same : after.device? region.device = before.device? region.device :=
      (nothing.devices _ device isDevice io).trans isDevice.symm
    have answers : ∀ width, (after.read region (region.range.offsetOf address) width).1 =
        (before.read region (region.range.offsetOf address) width).1 := by
      intro width
      unfold read
      rw [same, isDevice]
    simp only [answers]

end Bus

/-! ## The accesses of a turn -/

namespace Machine

/-- The physical address that an access goes to: the cached one, or else the one that the page
tables give. -/
def physicalOf (machine : Machine) (address : Word) (kind : AccessKind) : Option Word :=
  match machine.hart.tlb.lookup address kind with
  | some (physical, _) => some physical
  | none =>
    if Bypasses machine.hart kind then some address
    else (machine.leafOf address kind).map (·.physical address)

/-- The accesses to devices of input and output that an instruction makes. -/
def deviceAccessesOf (machine : Machine) (instruction : Instruction) : List DeviceAccess :=
  match instruction.access machine.hart with
  | some (address, kind) =>
    match machine.physicalOf address kind with
    | some physical => instruction.deviceAccesses machine.hart physical machine.bus
    | none => []
  | none => []

/-- The accesses to devices of input and output that the next instruction makes. -/
def nextDeviceAccesses (machine : Machine) : List DeviceAccess :=
  match machine.nextInstruction with
  | some instruction => machine.deviceAccessesOf instruction
  | none => []

/-- The accesses to devices of input and output of a turn: none if the hart waits or takes an
interrupt, else those of the instruction that is executed. -/
def turnDeviceAccesses (machine : Machine) : List DeviceAccess :=
  if machine.hart.halted || machine.hart.nextInterrupt.isSome then []
  else machine.counted.nextDeviceAccesses

variable {machine after : Machine} {instruction : Instruction} {address : Word}
  {kind : AccessKind}

section Locate

variable (inside : ∀ location ∈ machine.pathOf address kind, machine.bus.InMemory location)

include inside

theorem locate_physicalOf :
    ((locate address kind).outcome machine).1.toOption.map Prod.fst =
      machine.physicalOf address kind := by
  unfold physicalOf
  rcases looked : machine.hart.tlb.lookup address kind with _ | ⟨cached, region⟩
  · rw [locate_of_miss looked, translate_outcome inside]
    by_cases bypasses : Bypasses machine.hart kind
    · rw [if_pos bypasses]
      dsimp only
      rw [if_pos bypasses]
      split <;> rfl
    · rw [if_neg bypasses]
      dsimp only
      rw [if_neg bypasses]
      cases machine.leafOf address kind with
      | none => rfl
      | some leaf =>
          dsimp only
          split <;> rfl
  · rw [locate_of_hit looked]
    rfl

/-- To locate an address reaches no device of input and output. -/
theorem serves_locate : machine.bus.Serves [] ((locate address kind).outcome machine).2.bus := by
  rcases locate_bus inside with same | ⟨leaf, isLeaf, marked⟩
  · rw [same]
    exact .refl _
  · obtain ⟨member, -⟩ := leafOf_eq_some isLeaf
    obtain ⟨region, found, memory⟩ := inside _ member
    have elsewhere : machine.bus.ioRegion? leaf.location = none := by
      unfold Bus.ioRegion?
      rw [found, Option.filter_some, memory]
      rfl
    rw [marked]
    unfold Bus.mark
    split
    · exact .refl _
    · exact Bus.serves_store_elsewhere elsewhere _ _

end Locate

/-- An instruction on a machine whose page tables lie in main memory. -/
theorem serves_execute (sound : machine.Sound) (tables : machine.TablesInMemory)
    (instruction : Instruction) (raw length : Word) :
    machine.bus.Serves (machine.deviceAccessesOf instruction)
      ((execute instruction raw length).outcome machine).2.bus := by
  unfold deviceAccessesOf
  rcases access : instruction.access machine.hart with _ | ⟨address, kind⟩
  · rw [bus_execute_of_noAccess access]
    exact .refl _
  · have inside : ∀ location ∈ (prepare instruction machine).pathOf address kind,
        (prepare instruction machine).bus.InMemory location := by
      cases instruction <;> exact tables.path address kind
    have isPhysical := locate_physicalOf inside
    have located := serves_locate inside
    have same : (prepare instruction machine).physicalOf address kind =
        machine.physicalOf address kind := by
      cases instruction <;> rfl
    rw [bus_prepare] at located
    rw [same] at isPhysical
    rw [bus_execute sound access]
    dsimp only
    rw [← isPhysical]
    rcases ended : (locate address kind).outcome (prepare instruction machine) with
      ⟨raised | ⟨physical, region?⟩, after⟩
    all_goals rw [ended] at located
    · exact located
    · have served := Bus.serves_onBus instruction machine.hart physical after.bus
      rw [located.deviceAccesses_eq rfl rfl] at served
      exact located.after_nothing served

/-- The fetch of an instruction does not disturb its access: other tables of the caches serve it,
and in the page tables only accessed bits were set. -/
theorem deviceAccessesOf_fetched {leaves : Word → Prop} (tables : machine.TablesInMemory)
    (fetched : machine.Fetched leaves after) (caches : machine.CachesOnly .fetch after) :
    after.deviceAccessesOf instruction = machine.deviceAccessesOf instruction := by
  obtain ⟨tlb, same⟩ := fetched.hart
  have sameAccess : instruction.access after.hart = instruction.access machine.hart := by
    rw [same]
    cases instruction <;> rfl
  unfold deviceAccessesOf
  rw [sameAccess]
  rcases access : instruction.access machine.hart with _ | ⟨address, kind⟩
  · rfl
  · have context := fetched.hart.access.program.translationContext kind
    have aged := gains_of_ages fetched.ages (tables.path address kind)
    have looked : after.hart.tlb.lookup address kind = machine.hart.tlb.lookup address kind := by
      unfold Tlb.lookup
      rw [caches kind (Instruction.access_eq_some access).2]
    have samePhysical : after.physicalOf address kind = machine.physicalOf address kind := by
      unfold physicalOf
      rw [looked, leafOf_of_gains aged context]
      have bypasses := propext (bypasses_iff_of_context context)
      cases isLeaf : machine.leafOf address kind with
      | none => simp only [bypasses, Option.map_none]
      | some leaf =>
          obtain ⟨member, -, isEntry, -⟩ := leafOf_eq_some isLeaf
          have gained := aged _ member
          rw [← isEntry] at gained
          simp only [bypasses, Option.map_some, Leaf.physical_of_gains gained]
    dsimp only
    rw [samePhysical]
    rcases machine.physicalOf address kind with _ | physical
    · rfl
    · refine fetched.accessed.serves.deviceAccesses_eq ?_ ?_ instruction physical
      · rw [same]
      · rw [same]

/-- The next instruction, from its fetch to its end or its exception. -/
theorem serves_executeNext (sound : machine.Sound) (tables : machine.TablesInMemory) :
    machine.bus.Serves machine.nextDeviceAccesses (executeNext.outcome machine).2.bus := by
  have fetched := fetch_fetched sound tables
  have caches := fetch_cachesOnly machine
  unfold nextDeviceAccesses nextInstruction
  rw [executeNext_outcome]
  rcases wasFetched : fetch.outcome machine with ⟨raised | raw, middle⟩
  all_goals rw [wasFetched] at fetched caches
  · exact fetched.accessed.serves
  · dsimp only
    rcases decodeFetched raw with refused | ⟨instruction, length⟩
    · exact fetched.accessed.serves
    · have served := serves_execute fetched.sound (fetched.tables tables) instruction raw length
      rw [deviceAccessesOf_fetched tables fetched caches] at served
      exact fetched.accessed.serves.after_nothing served

/-- An instruction that raises an exception has made no access. -/
theorem nextDeviceAccesses_of_error {raised : Exception} (sound : machine.Sound)
    (tables : machine.TablesInMemory)
    (failed : (executeNext.outcome machine).1 = .error raised) :
    machine.nextDeviceAccesses = [] := by
  have served := (serves_executeNext sound tables).ledger
  have untouched := (accessedOnly_of_error sound tables (Prod.ext failed rfl)).accesses
  rw [untouched, List.self_eq_append_left, List.reverse_eq_nil_iff] at served
  exact served

theorem turnDeviceAccesses_running (running : machine.hart.halted = false)
    (uninterrupted : machine.hart.nextInterrupt = none) :
    machine.turnDeviceAccesses = machine.counted.nextDeviceAccesses := by
  unfold turnDeviceAccesses
  rw [running, uninterrupted]
  rfl

/-- In a turn, the devices serve the accesses of the instruction that is executed. -/
theorem serves_turn (sound : machine.Sound) (tables : machine.TablesInMemory) :
    machine.bus.Serves machine.turnDeviceAccesses machine.turn.bus := by
  have tablesCounted : machine.counted.TablesInMemory := tables
  cases running : machine.hart.halted with
  | true =>
      unfold turn turnDeviceAccesses
      rw [running]
      exact .refl _
  | false =>
      rw [turn_running running]
      rcases pending : machine.hart.nextInterrupt with _ | interrupt
      · rw [bus_cycle pending, turnDeviceAccesses_running running pending]
        exact serves_executeNext sound.counted tablesCounted
      · rw [bus_cycle_of_interrupt pending]
        unfold turnDeviceAccesses
        rw [pending, Option.isSome_some, Bool.or_true]
        exact .refl _

/-- On a sound bus this does not depend on what the machine did before and what it cached then. -/
theorem serves_turn_of_reaches {admits : Operation → Machine → Prop} {config : HartConfig}
    {bus : Bus} (sound : bus.Sound) (reached : (initial config bus).Reaches admits machine)
    (tables : machine.TablesInMemory) :
    machine.bus.Serves machine.turnDeviceAccesses machine.turn.bus :=
  serves_turn (.of_reaches sound reached) tables

/-- Over a run, the devices of input and output serve the accesses of its turns, one turn after the
other, as long as the page tables stay in main memory. -/
theorem serves_run (sound : machine.Sound) {budget : Nat}
    (tables : ∀ turns < machine.turnsWithin budget, (afterTurns turns machine).TablesInMemory) :
    machine.bus.Serves
      ((List.range (machine.turnsWithin budget)).flatMap fun turns =>
        (afterTurns turns machine).turnDeviceAccesses)
      (machine.run budget).value.bus := by
  have stays : ∀ turns, (afterTurns turns machine).Sound :=
    afterTurns_keeps Machine.Sound (fun _ sound _ => sound.cycle) sound
  have turnByTurn : ∀ turns ≤ machine.turnsWithin budget,
      machine.bus.Serves
        ((List.range turns).flatMap fun turns => (afterTurns turns machine).turnDeviceAccesses)
        (afterTurns turns machine).bus := by
    intro turns made
    induction turns with
    | zero => exact .refl _
    | succ turns ih =>
        have served := serves_turn (stays turns) (tables turns made)
        rw [List.range_succ, List.flatMap_append, List.flatMap_singleton, afterTurns_succ]
        exact (ih (Nat.le_of_succ_le made)).trans served
  rw [run_eq_afterTurns]
  exact turnByTurn _ (Nat.le_refl _)

/-- In every turn, the devices of input and output serve the accesses of the instruction that is
executed, each once and in order, and nothing else: not for an interrupt, a fetch or a walk, and not
for an instruction that raises an exception. On a sound bus this holds of every machine that is
reached, whatever it has cached (`Sound.of_reaches`). -/
theorem device_accesses_exact (sound : machine.Sound) (tables : machine.TablesInMemory) :
    machine.bus.Serves machine.turnDeviceAccesses machine.turn.bus ∧
      (machine.Raises → machine.turnDeviceAccesses = []) := by
  refine ⟨serves_turn sound tables, ?_⟩
  rintro ⟨running, uninterrupted, raised, failed⟩
  have tablesCounted : machine.counted.TablesInMemory := tables
  rw [turnDeviceAccesses_running running uninterrupted]
  exact nextDeviceAccesses_of_error sound.counted tablesCounted failed

/-- A device that gives a higher answer to every read, so that a read more or less would show. -/
def countingPeripheral : Peripheral :=
  .ofState (fun (reads : Word) _ width => (0x81828381 + reads) &&& width.mask)
    (fun reads access =>
      match access with
      | .read .. => reads + 1
      | .write .. => reads)
    0

/-- Main memory in the lower half of the address space and a device in the upper half. A table at
address 0 maps the first four megabytes to themselves and the next four to the device. Behind these
two entries there is an atomic addition. -/
def probeBus : Bus where
  ranges := ⟨[(⟨0, 0x7FFFFFFF, by decide⟩, 0), (⟨0x80000000, 0xFFFFFFFF, by decide⟩, 1)], by decide⟩
  devices :=
    #[.ram ((Ram.zeros 12).loadImage 0 [0x0B, 0, 0, 0, 0x07, 0, 0, 0x20, 0xAF, 0x22, 0x65, 0]),
      .peripheral countingPeripheral]
  accesses := []

/-- A machine in S-mode that adds to a word of the device. -/
def probingMachine : Machine where
  hart :=
    { ((Hart.initial ⟨8, 0⟩).setX 10 0x00400010).setX 6 5 with
      privilege := .supervisor, satp := .ofWord _ 0x80000000 }
  bus := probeBus

/-- The word is read and written once each, through the table. -/
theorem probingMachine_accesses :
    probingMachine.turnDeviceAccesses =
        [⟨1, .read, 0x10, .word, 0x81828381⟩, ⟨1, .write, 0x10, .word, 0x81828386⟩] ∧
      probingMachine.turn.bus.accesses =
        [⟨1, .write, 0x10, .word, 0x81828386⟩, ⟨1, .read, 0x10, .word, 0x81828381⟩] := by
  have sound : probingMachine.Sound := ⟨⟨by decide, by decide⟩, .empty _⟩
  have leaves : ∀ index : BitVec 10,
      ((probeBus.entryAt (0 + index.setWidth 32 * 4)).wellFormed &&
        (probeBus.entryAt (0 + index.setWidth 32 * 4)).isPointer) = false ∧
        probeBus.InMemory (0 + index.setWidth 32 * 4) := by
    decide +kernel
  have tables : probingMachine.TablesInMemory := by
    intro _ address location member
    have root : rootTable probingMachine.hart = 0 := by decide
    obtain ⟨leaf, inside⟩ := leaves (address.extractLsb' (levelShift 1) 10)
    have path : probeBus.walkPath address 2 0 = [entryAddress 0 address 1] :=
      if_neg (Bool.eq_false_iff.1 leaf)
    rw [root] at member
    obtain rfl := List.mem_singleton.1 (path ▸ member)
    exact inside
  have served : probingMachine.turnDeviceAccesses =
      [⟨1, .read, 0x10, .word, 0x81828381⟩, ⟨1, .write, 0x10, .word, 0x81828386⟩] := by
    decide +kernel
  have ledger := (device_accesses_exact sound tables).1.ledger
  rw [served] at ledger
  exact ⟨served, ledger⟩

end Machine

end Rv32
