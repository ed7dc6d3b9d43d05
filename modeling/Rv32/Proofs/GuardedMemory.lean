import Rv32.Proofs.GuardedBus
import Rv32.Proofs.GuardedHart
import Rv32.Proofs.Soundness

/-!
# Memory accesses that ask first

An access checks its alignment, is located by the caches or by a walk, and reads or writes at an
offset in the region that was found. Here each of these asks before it does what is not defined
everywhere.

`Effect.Follows` and `Attempt.Follows` say that, on a machine whose bus is sound, an action that
asks first has no breach and does what the plain one does, and that the bus is sound again. This
passes from the parts of an action to the whole. What an access needs to know is that a located
region contains the address it was located for (`Placed`).
-/

namespace Rv32.Checked

/-- A change of the machine with a result, unless a breach stops it. -/
abbrev Effect := StateT Machine Reported

/-- A change of the machine that ends with a result or with an exception, unless a breach stops
it. -/
abbrev Attempt := ExceptT Exception Effect

/-- An effect that there is nothing to ask about. -/
def unasked {α : Type} (effect : Rv32.Effect α) : Effect α := fun machine =>
  plain (effect.run machine)

instance : MonadLift Rv32.Effect Effect := ⟨unasked⟩

/-- An attempt that there is nothing to ask about. -/
def unaskedAttempt {α : Type} (attempt : Rv32.Attempt α) : Attempt α :=
  ExceptT.mk (unasked attempt.run)

instance : MonadLift Rv32.Attempt Attempt := ⟨unaskedAttempt⟩

/-- Change the hart. -/
def changeHart (change : Hart → Reported Hart) : Effect Unit := fun machine => do
  let hart ← change machine.hart
  return ((), { machine with hart := hart })

/-- Use the bus. -/
def useBus {α : Type} (use : Bus → Checked (α × Bus)) : Effect α := fun machine => do
  let (value, bus) ← use machine.bus
  return (value, { machine with bus := bus })

/-- Change the bus. -/
def changeBus (change : Bus → Checked Bus) : Effect Unit :=
  useBus fun bus => return ((), ← change bus)

/-! ## Actions that follow plain ones -/

section Follows

variable {α β : Type}

/-- On a machine with a sound bus the effect that asks first does what the plain one does, which
leaves the bus sound. -/
def Effect.Follows (asking : Effect α) (effect : Rv32.Effect α) : Prop :=
  ∀ machine, machine.bus.Sound →
    asking.run machine = plain (effect.run machine) ∧ (effect.outcome machine).2.bus.Sound

/-- The same of an attempt. -/
def Attempt.Follows (asking : Attempt α) (attempt : Rv32.Attempt α) : Prop :=
  Effect.Follows asking.run attempt.run

theorem effect_ok_bind (value : α) (next : α → Effect β) :
    ((liftM (Except.ok value : Checked α) : Effect α) >>= next) = next value :=
  pure_bind (m := Effect) value next

theorem attempt_ok_bind (value : α) (next : α → Attempt β) :
    ((liftM (Except.ok value : Checked α) : Attempt α) >>= next) = next value :=
  pure_bind (m := Attempt) value next

/-- What comes after a change that was reported depends on its value alone. -/
theorem plain_bind_congr {change : Logged α} {first second : α → Reported β}
    (same : first change.value = second change.value) :
    plain change >>= first = plain change >>= second := by
  obtain ⟨value, log⟩ := change
  exact congrArg (fun rest : Reported β => Logged.after (log ++ #[]) rest.run) same

namespace Effect.Follows

theorem pure (value : α) : Follows (Pure.pure value) (Pure.pure value) :=
  fun _ sound => ⟨rfl, sound⟩

/-- What comes next needs to follow only for the results that there can be. -/
theorem bindOf {asking : Effect α} {effect : Rv32.Effect α} {after : α → Effect β}
    {next : α → Rv32.Effect β} (first : asking.Follows effect)
    (rest : ∀ machine,
      (after (effect.outcome machine).1).Follows (next (effect.outcome machine).1)) :
    Follows (asking >>= after) (effect >>= next) := by
  intro machine sound
  obtain ⟨same, still⟩ := first machine sound
  obtain ⟨sameRest, stillRest⟩ := rest machine _ still
  refine ⟨?_, stillRest⟩
  rw [StateT.run_bind, StateT.run_bind, same, plain_bind]
  exact plain_bind_congr sameRest

theorem bind {asking : Effect α} {effect : Rv32.Effect α} {after : α → Effect β}
    {next : α → Rv32.Effect β} (first : asking.Follows effect)
    (rest : ∀ value, (after value).Follows (next value)) :
    Follows (asking >>= after) (effect >>= next) :=
  first.bindOf fun _ => rest _

theorem unasked {effect : Rv32.Effect α}
    (kept : effect.Within fun before after => before.bus.Sound → after.bus.Sound) :
    Follows (liftM effect) effect :=
  fun machine sound => ⟨rfl, kept machine sound⟩

end Effect.Follows

namespace Attempt.Follows

theorem pure (value : α) : Follows (Pure.pure value) (Pure.pure value) :=
  Effect.Follows.pure (Except.ok value)

theorem throw (raised : Exception) :
    Follows (MonadExcept.throw raised : Attempt α) (MonadExcept.throw raised) :=
  Effect.Follows.pure (Except.error raised)

theorem lift {asking : Effect α} {effect : Rv32.Effect α} (first : asking.Follows effect) :
    Follows (liftM asking) (liftM effect) := by
  change Effect.Follows (Except.ok <$> asking) (Except.ok <$> effect)
  rw [map_eq_pure_bind, map_eq_pure_bind]
  exact first.bind fun value => .pure (Except.ok value)

theorem unasked {effect : Rv32.Effect α}
    (kept : effect.Within fun before after => before.bus.Sound → after.bus.Sound) :
    Follows (liftM effect) (liftM effect) :=
  lift (.unasked kept)

theorem unaskedAttempt {attempt : Rv32.Attempt α}
    (kept : attempt.Within fun before after => before.bus.Sound → after.bus.Sound) :
    Follows (liftM attempt) attempt :=
  fun machine sound => ⟨rfl, kept machine sound⟩

theorem bindOf {asking : Attempt α} {attempt : Rv32.Attempt α} {after : α → Attempt β}
    {next : α → Rv32.Attempt β} {holds : α → Prop} (first : asking.Follows attempt)
    (results : ∀ machine later value, attempt.outcome machine = (.ok value, later) → holds value)
    (rest : ∀ value, holds value → (after value).Follows (next value)) :
    Follows (asking >>= after) (attempt >>= next) := by
  refine Effect.Follows.bindOf first fun machine => ?_
  rcases ended : attempt.outcome machine with ⟨raised | value, later⟩
  · have isResult : (Rv32.Effect.outcome attempt machine).1 = .error raised :=
      congrArg Prod.fst ended
    rw [isResult]
    exact throw raised
  · have isResult : (Rv32.Effect.outcome attempt machine).1 = .ok value := congrArg Prod.fst ended
    rw [isResult]
    exact rest value (results machine later value ended)

theorem bind {asking : Attempt α} {attempt : Rv32.Attempt α} {after : α → Attempt β}
    {next : α → Rv32.Attempt β} (first : asking.Follows attempt)
    (rest : ∀ value, (after value).Follows (next value)) :
    Follows (asking >>= after) (attempt >>= next) :=
  @bindOf _ _ _ _ _ _ (fun _ => True) first (fun _ _ _ _ => trivial) fun value _ => rest value

theorem ite {condition : Prop} [Decidable condition] {yes no : Attempt α}
    {plainYes plainNo : Rv32.Attempt α} (first : yes.Follows plainYes)
    (second : no.Follows plainNo) :
    Follows (if condition then yes else no) (if condition then plainYes else plainNo) := by
  split
  · exact first
  · exact second

end Attempt.Follows

end Follows

variable {α : Type}

theorem changeHart_follows {change : Hart → Reported Hart} {changed : Hart → Hart}
    (same : ∀ hart, change hart = pure (changed hart)) :
    (changeHart change).Follows (Machine.modifyHart changed) := by
  intro machine sound
  refine ⟨?_, sound⟩
  unfold changeHart
  rw [StateT.run, same]
  rfl

theorem updateHart_follows {change : Hart → Reported Hart} {changed : Hart → Logged Hart}
    (same : ∀ hart, change hart = plain (changed hart)) :
    (changeHart change).Follows (Machine.updateHart changed) := by
  intro machine sound
  refine ⟨?_, sound⟩
  unfold changeHart
  rw [StateT.run, same]
  exact (plain_bind (changed machine.hart) fun hart =>
    pure ((), { machine with hart := hart })).symm

theorem useBus_follows {use : Bus → Checked (α × Bus)} {used : Bus → α × Bus}
    {effect : Rv32.Effect α} (same : ∀ bus : Bus, bus.Sound → use bus = .ok (used bus))
    (map : ∀ bus : Bus, bus.SameMap (used bus).2)
    (uses : ∀ machine, effect.run machine =
      pure ((used machine.bus).1, { machine with bus := (used machine.bus).2 })) :
    (useBus use).Follows effect := by
  intro machine sound
  unfold useBus Rv32.Effect.outcome
  rw [StateT.run, same machine.bus sound, uses]
  exact ⟨rfl, (map machine.bus).sound sound⟩

theorem changeBus_follows {change : Bus → Checked Bus} {changed : Bus → Bus}
    (same : ∀ bus : Bus, bus.Sound → change bus = .ok (changed bus))
    (map : ∀ bus : Bus, bus.SameMap (changed bus)) :
    (changeBus change).Follows (Machine.modifyBus changed) := by
  refine @useBus_follows Unit _ (fun bus => ((), changed bus)) _ (fun bus sound => ?_) map
    fun _ => rfl
  rw [same bus sound]
  rfl

/-! ## Translation -/

/-- The level that decides on an access. -/
def effectiveLevel (hart : Hart) (kind : AccessKind) : Checked Privilege :=
  match kind with
  | .fetch => return hart.privilege
  | _ => if hart.status.mprv then mpp hart.status else return hart.privilege

/-- The number of bits of an address below the index into a table of `level`. -/
def levelShift (level : Nat) : Checked Nat := do
  return (← add (12 : Word) (← mul 10 (BitVec.ofNat 32 level))).toNat

/-- The address of the entry for `address` in a table of `level`. -/
def entryAddress (table address : Word) (level : Nat) : Checked Word := do
  let lowered ← shiftRight address (← levelShift level)
  return table + (← mul (lowered &&& 0x3FF) 4)

/-- The address that a leaf in a table of `level` gives to a virtual one. -/
def leafAddress (entry : PageTableEntry) (address : Word) (level : Nat) : Checked Word := do
  let mask ← lowMask (← levelShift level)
  return PageTableEntry.pageBase entry.page &&& ~~~mask ||| address &&& mask

/-- Whether an access may use a leaf. -/
def permits (entry : PageTableEntry) (hart : Hart) (kind : AccessKind) : Checked Bool := do
  let level ← effectiveLevel hart kind
  return entry.permitsLevel level kind hart.status.sum && entry.permitsKind kind hart.status.mxr

/-- Read from a physical address. -/
def loadPhysical (address : Word) (width : Width) : Effect Word :=
  useBus fun bus => loadBus bus address width

/-- Note in a leaf that it was used. -/
def markUsed (location : Word) (entry : PageTableEntry) (kind : AccessKind) : Effect Unit :=
  if entry.used kind = entry then return ()
  else changeBus fun bus => storeBus bus location (entry.used kind).bits .word

/-- Follow the page tables for `address` through `levels` levels, from the table at `table` on. -/
def walk (address : Word) (kind : AccessKind) : (levels : Nat) → (table : Word) → Attempt Word
  | 0, _ => throw (kind.pageFault address)
  | level + 1, table => do
    let location ← entryAddress table address level
    let entry : PageTableEntry := ⟨← loadPhysical location .word⟩
    if !entry.wellFormed then throw (kind.pageFault address)
    else if entry.isPointer then walk address kind level (PageTableEntry.pageBase entry.page)
    else
      let hart ← Machine.getHart
      if !(← permits entry hart kind) then throw (kind.pageFault address)
      else
        markUsed location entry kind
        leafAddress (entry.used kind) address level

/-- The physical address of a virtual one. -/
def translate (address : Word) (kind : AccessKind) : Attempt Word := do
  let hart ← Machine.getHart
  let level ← effectiveLevel hart kind
  if level = .machine ∨ hart.satp.translates = false then return address
  else walk address kind 2 (PageTableEntry.pageBase hart.satp.rootPage)

theorem effectiveLevel_eq (hart : Hart) (kind : AccessKind) :
    effectiveLevel hart kind = .ok (Machine.effectiveLevel hart kind) := by
  unfold effectiveLevel Machine.effectiveLevel
  rw [mpp_eq]
  cases kind with
  | fetch => rfl
  | load =>
      dsimp only
      split <;> rfl
  | store =>
      dsimp only
      split <;> rfl

theorem levelShift_eq {level : Nat} (isLevel : level < 2) :
    levelShift level = .ok (Machine.levelShift level) := by
  obtain rfl | rfl : level = 0 ∨ level = 1 := by omega
  · rfl
  · rfl

theorem levelShift_lt {level : Nat} (isLevel : level < 2) : Machine.levelShift level < 32 := by
  unfold Machine.levelShift
  omega

theorem entryAddress_eq (table address : Word) {level : Nat} (isLevel : level < 2) :
    entryAddress table address level = .ok (Machine.entryAddress table address level) := by
  have index : address >>> Machine.levelShift level &&& 0x3FF =
      (address.extractLsb' (Machine.levelShift level) 10).setWidth 32 := by
    refine BitVec.eq_of_toNat_eq ?_
    rw [@toNat_and_mask 32 _ 0x3FF 10 rfl, BitVec.toNat_ushiftRight,
      BitVec.toNat_setWidth_of_le (by decide), BitVec.extractLsb'_toNat]
  have small := (address.extractLsb' (Machine.levelShift level) 10).isLt
  have four : (4 : Word).toNat = 4 := rfl
  have fits : ((address.extractLsb' (Machine.levelShift level) 10).setWidth 32).toNat *
      (4 : Word).toNat < 2 ^ 32 := by
    rw [BitVec.toNat_setWidth_of_le (by decide), four]
    omega
  rw [entryAddress, levelShift_eq isLevel, ok_bind, shiftRight_eq _ (levelShift_lt isLevel),
    ok_bind, index, mul_eq fits]
  rfl

theorem leafAddress_eq (entry : PageTableEntry) (address : Word) {level : Nat}
    (isLevel : level < 2) :
    leafAddress entry address level = .ok (entry.translate address (Machine.levelShift level)) := by
  rw [leafAddress, levelShift_eq isLevel, ok_bind, lowMask_eq (levelShift_lt isLevel)]
  rfl

theorem permits_eq (entry : PageTableEntry) (hart : Hart) (kind : AccessKind) :
    permits entry hart kind = .ok (Machine.permits entry hart kind) := by
  rw [permits, effectiveLevel_eq]
  rfl

theorem loadPhysical_follows (address : Word) (width : Width) :
    (loadPhysical address width).Follows (Machine.loadPhysical address width) :=
  useBus_follows (fun _ sound => loadBus_eq sound address width)
    (fun bus => bus.sameMap_load address width) fun _ => rfl

theorem markUsed_follows (location : Word) (entry : PageTableEntry) (kind : AccessKind) :
    (markUsed location entry kind).Follows (Machine.markUsed location entry kind) := by
  unfold markUsed Machine.markUsed
  split
  · exact .pure ()
  · exact changeBus_follows (fun bus sound => storeBus_eq sound location _ .word)
      fun bus => bus.sameMap_store location _ .word

theorem walk_follows (address : Word) (kind : AccessKind) {levels : Nat} (few : levels ≤ 2)
    (table : Word) :
    (walk address kind levels table).Follows (Machine.walk address kind levels table) := by
  induction levels generalizing table with
  | zero => exact .throw _
  | succ level ih =>
      rw [walk, Machine.walk]
      simp only [entryAddress_eq table address few, attempt_ok_bind, permits_eq,
        leafAddress_eq _ address few]
      refine .bind (.lift (loadPhysical_follows _ _)) fun bits => ?_
      refine .ite (.throw _) (.ite (ih (Nat.le_of_succ_le few) _) ?_)
      refine .bind (.unasked fun _ => id) fun hart => .ite (.throw _) ?_
      exact .bind (.lift (markUsed_follows _ _ _)) fun _ => .pure _

theorem translate_follows (address : Word) (kind : AccessKind) :
    (translate address kind).Follows (Machine.translate address kind) := by
  unfold translate Machine.translate
  simp only [effectiveLevel_eq, attempt_ok_bind]
  refine .bind (.unasked fun _ => id) fun hart => .ite (.pure _) ?_
  exact walk_follows address kind (Nat.le_refl 2) _

/-! ## Accesses -/

/-- Whether an address is aligned to a width. -/
def aligned (width : Width) (address : Word) : Checked Bool := do
  return address &&& (← sub (BitVec.ofNat 32 width.bytes) 1) = 0

/-- The region of a physical address. -/
def regionOf (address : Word) : Effect (Option Region) :=
  useBus fun bus => return (← findRegion bus address, bus)

/-- The physical address of a virtual one and the region it lies in. -/
def locate (address : Word) (kind : AccessKind) : Attempt (Word × Option Region) := do
  let hart ← Machine.getHart
  match ← lookup hart.tlb address kind with
  | some (physical, region) => return (physical, some region)
  | none =>
    let physical ← translate address kind
    match ← regionOf physical with
    | some region =>
      changeHart fun hart => do
        return { hart with tlb := ← insert hart.tlb address physical region kind }
      return (physical, some region)
    | none => return (physical, none)

/-- Read from a place that was located. -/
def readLocated (physical : Word) (region? : Option Region) (width : Width) : Effect Word :=
  match region? with
  | some region => do
    let offset ← offsetOf region.range physical
    useBus fun bus => readBus bus region offset width
  | none => do
    Machine.report (.unmappedLoad physical)
    return 0

/-- Write to a place that was located. -/
def writeLocated (physical : Word) (region? : Option Region) (value : Word) (width : Width) :
    Effect Unit :=
  match region? with
  | some region => do
    let offset ← offsetOf region.range physical
    changeBus fun bus => writeNoted bus region offset (value &&& width.mask) width
  | none => Machine.report (.unmappedStore physical)

/-- Load from a virtual address. -/
def load (address : Word) (width : Width) : Attempt Word := do
  if ¬ (← aligned width address) then throw (.loadAddressMisaligned address)
  let (physical, region?) ← locate address .load
  readLocated physical region? width

/-- Store the low bytes of `value` at a virtual address. -/
def store (address value : Word) (width : Width) : Attempt Unit := do
  if ¬ (← aligned width address) then throw (.storeAddressMisaligned address)
  let (physical, region?) ← locate address .store
  writeLocated physical region? value width

/-- Load a word and reserve its physical address. -/
def loadReserved (address : Word) : Attempt Word := do
  if ¬ (← aligned .word address) then throw (.loadAddressMisaligned address)
  let (physical, region?) ← locate address .load
  Machine.modifyHart fun hart => { hart with reservation := some physical }
  readLocated physical region? .word

/-- Store a word if its physical address is reserved, and tell whether that was so. -/
def storeConditional (address value : Word) : Attempt Bool := do
  let reserved := (← Machine.getHart).reservation
  Machine.modifyHart fun hart => { hart with reservation := none }
  if ¬ (← aligned .word address) then throw (.storeAddressMisaligned address)
  let (physical, region?) ← locate address .store
  if reserved = some physical then
    writeLocated physical region? value .word
    return true
  else return false

/-- Replace a word by what `change` makes of it and give the old word. -/
def atomicUpdate (address : Word) (change : Word → Word) : Attempt Word := do
  if ¬ (← aligned .word address) then throw (.storeAddressMisaligned address)
  let (physical, region?) ← locate address .store
  let old ← readLocated physical region? .word
  writeLocated physical region? (change old) .word
  return old

/-- Fetch one parcel of an instruction. -/
def fetchParcel (address : Word) : Attempt Half := do
  let (physical, region?) ← locate address .fetch
  match region? with
  | some region =>
    if region.isMemory then
      let value ← readLocated physical (some region) .half
      return value.setWidth 16
    else throw (.instructionAccessFault address)
  | none => throw (.instructionAccessFault address)

/-- Fetch the instruction at the program counter. -/
def fetch : Attempt Word := do
  let pc := (← Machine.getHart).pc
  if ¬ (← aligned .half pc) then throw (.instructionAddressMisaligned pc)
  let low ← fetchParcel pc
  if Instruction.isCompressed low then return low.setWidth 32
  else
    let high ← fetchParcel (pc + 2)
    return high ++ low

theorem aligned_eq (width : Width) (address : Word) :
    aligned width address = .ok (decide (width.Aligned address)) := by
  have mask : ∃ bits, width.bytes = 2 ^ bits ∧
      (BitVec.ofNat 32 width.bytes - 1).toNat = 2 ^ bits - 1 := by
    cases width with
    | byte => exact ⟨0, rfl, rfl⟩
    | half => exact ⟨1, rfl, rfl⟩
    | word => exact ⟨2, rfl, rfl⟩
  obtain ⟨bits, power, isMask⟩ := mask
  have positive : (1 : Word).toNat ≤ (BitVec.ofNat 32 width.bytes).toNat := by
    cases width <;> decide
  have remainder : address &&& (BitVec.ofNat 32 width.bytes - 1) = 0 ↔ width.Aligned address := by
    rw [BitVec.toNat_eq, toNat_and_mask address isMask, ← power]
    rfl
  rw [aligned, sub_eq positive]
  exact congrArg Except.ok (decide_eq_decide.2 remainder)

/-- A located region contains the address it was located for. -/
def Placed (place : Word × Option Region) : Prop :=
  ∀ region, place.2 = some region → region.range.contains place.1 = true

theorem regionOf_follows (address : Word) :
    (regionOf address).Follows (Machine.findRegion address) := by
  refine @useBus_follows _ _ (fun bus => (bus.findRegion address, bus)) _ (fun bus sound => ?_)
    (fun bus => .refl bus) fun _ => rfl
  rw [findRegion_eq sound]
  rfl

theorem locate_follows (address : Word) (kind : AccessKind) :
    (locate address kind).Follows (Machine.locate address kind) := by
  unfold locate Machine.locate
  simp only [lookup_eq, attempt_ok_bind]
  refine .bind (.unasked fun _ => id) fun hart => ?_
  cases hart.tlb.lookup address kind with
  | some hit => exact .pure _
  | none =>
      refine .bind (translate_follows address kind) fun physical => ?_
      refine .bind (.lift (regionOf_follows physical)) fun region? => ?_
      cases region? with
      | none => exact .pure _
      | some region =>
          refine .bind (.lift (changeHart_follows fun hart => ?_)) fun _ => .pure _
          rw [insert_eq]
          rfl

/-- A hit is served in its region only, and a region that was found contains the address. -/
theorem placed_of_locate {machine after : Machine} {address : Word} {kind : AccessKind}
    {place : Word × Option Region}
    (located : (Machine.locate address kind).outcome machine = (.ok place, after)) :
    Placed place := by
  rintro region isRegion
  rcases looked : machine.hart.tlb.lookup address kind with _ | ⟨cachedPhysical, cachedRegion⟩
  · rw [Machine.locate_of_miss looked] at located
    split at located
    · split at located
      · rename_i found
        cases located
        cases isRegion
        exact (Bus.findRegion_eq_some_iff.1 found).2
      · cases located
        cases isRegion
    · cases located
  · rw [Machine.locate_of_hit looked] at located
    cases located
    cases isRegion
    obtain ⟨_, _, _, _, _, contains⟩ := Tlb.lookup_eq_some_iff.1 looked
    exact contains

theorem readLocated_follows {physical : Word} {region? : Option Region}
    (placed : Placed (physical, region?)) (width : Width) :
    (readLocated physical region? width).Follows (Machine.readLocated physical region? width) := by
  cases region? with
  | none => exact .bind (.unasked fun _ => id) fun _ => .pure 0
  | some region =>
      unfold readLocated Machine.readLocated
      dsimp only
      rw [offsetOf_eq (placed region rfl), effect_ok_bind]
      exact useBus_follows (fun bus _ => readBus_eq bus region _ width)
        (fun bus => bus.sameMap_read region _ width) fun _ => rfl

theorem writeLocated_follows {physical : Word} {region? : Option Region}
    (placed : Placed (physical, region?)) (value : Word) (width : Width) :
    (writeLocated physical region? value width).Follows
      (Machine.writeLocated physical region? value width) := by
  cases region? with
  | none => exact .unasked fun _ => id
  | some region =>
      unfold writeLocated Machine.writeLocated
      dsimp only
      rw [offsetOf_eq (placed region rfl), effect_ok_bind]
      refine changeBus_follows (fun bus _ => writeNoted_eq bus region _ _ width) fun bus => ?_
      split
      · exact .trans (bus.sameMap_write ..) (Bus.sameMap_markDirty ..)
      · exact bus.sameMap_write ..

/-- A refusal of addresses that are not aligned. -/
theorem Attempt.Follows.aligned {α : Type} {width : Width} {address : Word} {raised : Exception}
    {asking : Attempt α} {attempt : Rv32.Attempt α} (rest : asking.Follows attempt) :
    Follows (do
      if ¬ (← Checked.aligned width address) then MonadExcept.throw raised
      asking) (do
      if ¬ width.Aligned address then MonadExcept.throw raised
      attempt) := by
  rw [aligned_eq, attempt_ok_bind]
  by_cases isAligned : width.Aligned address
  · rw [decide_eq_true isAligned, if_neg (not_not_intro rfl), if_neg (not_not_intro isAligned)]
    exact rest
  · rw [decide_eq_false isAligned, if_pos Bool.false_ne_true, if_pos isAligned]
    exact .throw raised

theorem load_follows (address : Word) (width : Width) :
    (load address width).Follows (Machine.load address width) := by
  refine .aligned ?_
  refine .bindOf (locate_follows _ _) (fun _ _ _ => placed_of_locate) fun place placed => ?_
  exact .lift (readLocated_follows placed width)

theorem store_follows (address value : Word) (width : Width) :
    (store address value width).Follows (Machine.store address value width) := by
  refine .aligned ?_
  refine .bindOf (locate_follows _ _) (fun _ _ _ => placed_of_locate) fun place placed => ?_
  exact .lift (writeLocated_follows placed value width)

theorem loadReserved_follows (address : Word) :
    (loadReserved address).Follows (Machine.loadReserved address) := by
  refine .aligned ?_
  refine .bindOf (locate_follows _ _) (fun _ _ _ => placed_of_locate) fun place placed => ?_
  refine .bind (.unasked fun _ => id) fun _ => ?_
  exact .lift (readLocated_follows placed .word)

theorem storeConditional_follows (address value : Word) :
    (storeConditional address value).Follows (Machine.storeConditional address value) := by
  refine .bind (.unasked fun _ => id) fun hart => .bind (.unasked fun _ => id) fun _ => ?_
  refine .aligned ?_
  refine .bindOf (locate_follows _ _) (fun _ _ _ => placed_of_locate) fun place placed => ?_
  refine .ite (.bind (.lift (writeLocated_follows placed value .word)) fun _ => ?_) ?_
  · exact .pure true
  · exact .pure false

theorem atomicUpdate_follows (address : Word) (change : Word → Word) :
    (atomicUpdate address change).Follows (Machine.atomicUpdate address change) := by
  refine .aligned ?_
  refine .bindOf (locate_follows _ _) (fun _ _ _ => placed_of_locate) fun place placed => ?_
  refine .bind (.lift (readLocated_follows placed .word)) fun old => ?_
  exact .bind (.lift (writeLocated_follows placed (change old) .word)) fun _ => .pure old

theorem fetchParcel_follows (address : Word) :
    (fetchParcel address).Follows (Machine.fetchParcel address) := by
  refine .bindOf (locate_follows _ _) (fun _ _ _ => placed_of_locate) fun place placed => ?_
  obtain ⟨physical, region | region⟩ := place
  · exact .throw _
  · refine .ite (.bind (.lift ?_) fun value => .pure _) (.throw _)
    exact readLocated_follows placed .half

theorem fetch_follows : fetch.Follows Machine.fetch := by
  refine .bind (.unasked fun _ => id) fun hart => .aligned ?_
  refine .bind (fetchParcel_follows _) fun low => .ite (.pure _) ?_
  exact .bind (fetchParcel_follows _) fun high => .pure _

end Rv32.Checked
