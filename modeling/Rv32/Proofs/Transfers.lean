import Rv32.Proofs.DataAccess

/-!
# What an instruction does on the bus

Apart from the translation of its address, an instruction does on the bus what `Instruction.onBus`
says: it reads or writes the physical address, once, and an atomic operation both. That holds
whether the address was translated or cached, because what is cached leads where the bus leads
(`Machine.bus_execute`). A translation keeps the offset in the page, so an access that is aligned
stays aligned (`Machine.aligned_of_locate`).
-/

namespace Rv32

namespace Instruction

/-- The width of the access that an instruction makes. -/
def accessWidth : Instruction → Width
  | .load op _ _ _ => op.width
  | .store width _ _ _ => width
  | _ => .word

/-- Instructions access data, not instructions, and aligned by its width. -/
theorem access_eq_some {instruction : Instruction} {hart : Hart} {address : Word}
    {kind : AccessKind} (access : instruction.access hart = some (address, kind)) :
    instruction.accessWidth.Aligned address ∧ kind ≠ .fetch := by
  have atPlace : ∀ {width : Width} {place : Word} {how : AccessKind},
      accessAt width place how = some (address, kind) → how ≠ .fetch →
      width.Aligned address ∧ kind ≠ .fetch := by
    intro width place how access data
    obtain ⟨aligned, rfl, rfl⟩ := accessAt_eq_some access
    exact ⟨aligned, data⟩
  cases instruction with
  | load op rd rs1 offset => exact atPlace access nofun
  | store width rs2 rs1 offset => exact atPlace access nofun
  | loadReserved rd rs1 => exact atPlace access nofun
  | storeConditional rd rs1 rs2 => exact atPlace access nofun
  | amo op rd rs1 rs2 => exact atPlace access nofun
  | _ => cases access

end Instruction

/-- What an instruction that started in `start` does at the physical address of its access. A
conditional store needs a reservation. -/
def Instruction.onBus (instruction : Instruction) (start : Hart) (physical : Word) (bus : Bus) :
    Bus :=
  match instruction with
  | .load op _ _ _ => (bus.load physical op.width).2
  | .store width rs2 _ _ => bus.store physical (start.x rs2 &&& width.mask) width
  | .loadReserved _ _ => (bus.load physical .word).2
  | .storeConditional _ _ rs2 =>
    if start.reservation = some physical then
      bus.store physical (start.x rs2 &&& Width.word.mask) .word
    else bus
  | .amo op _ _ rs2 =>
    let (old, bus) := bus.load physical .word
    bus.store physical (op.eval old (start.x rs2) &&& Width.word.mask) .word
  | _ => bus

namespace Machine

variable {machine after : Machine} {instruction : Instruction} {address physical : Word}
  {kind : AccessKind} {region? : Option Region}

/-! ## Accesses to a place that was located -/

section Located

variable (found : region? = machine.bus.findRegion physical)

include found

theorem readLocated_outcome (width : Width) :
    (readLocated physical region? width).outcome machine =
      ((machine.bus.load physical width).1,
        { machine with bus := (machine.bus.load physical width).2 }) := by
  subst found
  unfold readLocated Bus.load
  cases machine.bus.findRegion physical with
  | none => rfl
  | some region => rfl

theorem writeLocated_outcome (value : Word) (width : Width) :
    (writeLocated physical region? value width).outcome machine =
      ((), { machine with bus := machine.bus.store physical (value &&& width.mask) width }) := by
  subst found
  unfold writeLocated Bus.store
  cases machine.bus.findRegion physical with
  | none => rfl
  | some region => rfl

/-- What is left of an instruction when its address has been located is its access. -/
theorem bus_complete (instruction : Instruction) (start : Hart) (length : Word) :
    ((complete instruction start length physical region?).outcome machine).2.bus =
      instruction.onBus start physical machine.bus := by
  have reads := readLocated_outcome found
  have writes := writeLocated_outcome found
  cases instruction with
  | load op rd rs1 offset =>
      unfold complete
      rw [Effect.outcome_bind, reads]
      rfl
  | store width rs2 rs1 offset =>
      unfold complete
      rw [Effect.outcome_bind, writes]
      rfl
  | loadReserved rd rs1 =>
      let reserved : Machine :=
        { machine with hart := { machine.hart with reservation := some physical } }
      have still : region? = reserved.bus.findRegion physical := found
      exact congrArg (fun outcome => outcome.2.bus) (readLocated_outcome still .word)
  | storeConditional rd rs1 rs2 =>
      unfold complete Instruction.onBus
      rw [Effect.outcome_ite]
      dsimp only
      split
      · rw [Effect.outcome_bind, writes]
        rfl
      · rfl
  | amo op rd rs1 rs2 =>
      have still : region? = (machine.bus.load physical .word).2.findRegion physical :=
        found.trans (machine.bus.findRegion_load physical .word physical).symm
      unfold complete
      rw [Effect.outcome_bind, reads, Effect.outcome_bind, writeLocated_outcome still]
      rfl
  | _ => rfl

end Located

/-! ## Where an address leads -/

/-- An address leads to the region that the bus finds for its physical address. -/
theorem Sound.region_of_locate (sound : machine.Sound)
    (located : (locate address kind).outcome machine = (.ok (physical, region?), after)) :
    region? = after.bus.findRegion physical := by
  cases region? with
  | some region => exact (sound.findRegion_of_locate located).symm
  | none =>
      rcases looked : machine.hart.tlb.lookup address kind with _ | ⟨cached, region⟩
      · rw [locate_of_miss looked] at located
        split at located
        · rename_i found middle translated
          split at located
          · cases located
          · rename_i nowhere
            cases located
            exact nowhere.symm
        · cases located
      · rw [locate_of_hit looked] at located
        cases located

theorem pageOffset_translate (entry : PageTableEntry) (address : Word) {level : Nat}
    (low : level < 2) : pageOffset (entry.translate address (levelShift level)) =
      pageOffset address := by
  have atLeast : 12 ≤ levelShift level := Nat.le_add_right ..
  have small : levelShift level < 32 := by
    unfold levelShift
    omega
  refine BitVec.eq_of_getLsbD_eq fun bit inside => ?_
  rw [getLsbD_pageOffset, getLsbD_pageOffset, getLsbD_translate entry address small (by omega),
    if_pos (by omega)]

theorem pageOffset_pageAddress (page : PageNumber) (offset : BitVec 12) :
    pageOffset (pageAddress page offset) = offset := by
  refine BitVec.eq_of_getLsbD_eq fun bit inside => ?_
  rw [getLsbD_pageOffset, getLsbD_pageAddress, if_pos inside, decide_eq_true inside, Bool.true_and]

theorem pageOffset_of_walk {levels : Nat} (low : levels ≤ 2) {table : Word}
    (walked : (walk address kind levels table).outcome machine = (.ok physical, after)) :
    pageOffset physical = pageOffset address := by
  induction levels generalizing table machine with
  | zero => cases walked
  | succ level ih =>
      unfold walk at walked
      obtain ⟨bits, middle, -, walked⟩ := Attempt.outcome_bind_eq_ok.1 walked
      dsimp only at walked
      rw [Attempt.outcome_ite] at walked
      split at walked
      · cases walked
      · rw [Attempt.outcome_ite] at walked
        split at walked
        · exact ih (Nat.le_of_succ_le low) walked
        · obtain ⟨hart, middle, -, walked⟩ := Attempt.outcome_bind_eq_ok.1 walked
          rw [Attempt.outcome_ite] at walked
          split at walked
          · cases walked
          · obtain ⟨_, _, -, ended⟩ := Attempt.outcome_bind_eq_ok.1 walked
            cases ended
            exact pageOffset_translate _ address low

/-- A physical address has the offset in its page that the virtual one has, also where it comes from
the caches. -/
theorem pageOffset_of_locate
    (located : (locate address kind).outcome machine = (.ok (physical, region?), after)) :
    pageOffset physical = pageOffset address := by
  rcases looked : machine.hart.tlb.lookup address kind with _ | ⟨cached, region⟩
  · rw [locate_of_miss looked] at located
    rcases translated : (translate address kind).outcome machine with ⟨raised | found, middle⟩
    · rw [translated] at located
      cases located
    · have isFound : physical = found := by
        rw [translated] at located
        dsimp only at located
        split at located
        · cases located
          rfl
        · cases located
          rfl
      subst isFound
      unfold translate at translated
      rw [Attempt.outcome_lift_bind, Effect.outcome_getHart] at translated
      dsimp only at translated
      rw [Attempt.outcome_ite] at translated
      split at translated
      · cases translated
        rfl
      · exact pageOffset_of_walk (Nat.le_refl 2) translated
  · rw [locate_of_hit looked] at located
    cases located
    obtain ⟨entry, -, -, -, rfl, -⟩ := Tlb.lookup_eq_some_iff.1 looked
    exact pageOffset_pageAddress ..

theorem aligned_of_pageOffset {width : Width} (same : pageOffset physical = pageOffset address)
    (aligned : width.Aligned address) : width.Aligned physical := by
  have offsets := congrArg BitVec.toNat same
  unfold pageOffset at offsets
  rw [BitVec.toNat_setWidth, BitVec.toNat_setWidth] at offsets
  unfold Width.Aligned at aligned ⊢
  cases width with
  | byte => exact Nat.mod_one _
  | half =>
      change address.toNat % 2 = 0 at aligned
      change physical.toNat % 2 = 0
      omega
  | word =>
      change address.toNat % 4 = 0 at aligned
      change physical.toNat % 4 = 0
      omega

/-- An access that is aligned stays aligned when its address is located. -/
theorem aligned_of_locate {width : Width} (aligned : width.Aligned address)
    (located : (locate address kind).outcome machine = (.ok (physical, region?), after)) :
    width.Aligned physical :=
  aligned_of_pageOffset (pageOffset_of_locate located) aligned

/-! ## The whole instruction -/

theorem Sound.prepare (sound : machine.Sound) (instruction : Instruction) :
    (Machine.prepare instruction machine).Sound := by
  cases instruction <;> exact ⟨sound.bus, sound.cached⟩

theorem bus_prepare (instruction : Instruction) (machine : Machine) :
    (prepare instruction machine).bus = machine.bus := by
  cases instruction <;> rfl

/-- An instruction that does not access data leaves the bus alone. -/
theorem bus_execute_of_noAccess (noAccess : instruction.access machine.hart = none)
    (raw length : Word) :
    ((execute instruction raw length).outcome machine).2.bus = machine.bus := by
  by_cases returns : instruction = .mret
  · subst returns
    unfold execute
    rw [Attempt.outcome_lift_bind, Effect.outcome_getHart]
    dsimp only
    unfold require
    split
    · rfl
    · rfl
  · exact (execute_local noAccess fun isMret => absurd isMret returns).bus

/-- An instruction that accesses data locates its address and then does on the bus what it says. -/
theorem bus_execute (sound : machine.Sound)
    (access : instruction.access machine.hart = some (address, kind)) (raw length : Word) :
    ((execute instruction raw length).outcome machine).2.bus =
      match (locate address kind).outcome (prepare instruction machine) with
      | (.ok (physical, _), after) => instruction.onBus machine.hart physical after.bus
      | (.error _, after) => after.bus := by
  rw [execute_of_access access]
  rcases located : (locate address kind).outcome (prepare instruction machine) with
    ⟨raised | ⟨physical, region?⟩, after⟩
  · rfl
  · exact bus_complete ((sound.prepare instruction).region_of_locate located) ..

/-- If its address is neither cached nor to be translated, an instruction acts on that address. -/
theorem bus_execute_of_bypasses (sound : machine.Sound)
    (access : instruction.access machine.hart = some (address, kind))
    (missed : machine.hart.tlb.lookup address kind = none) (bypasses : Bypasses machine.hart kind)
    (raw length : Word) :
    ((execute instruction raw length).outcome machine).2.bus =
      instruction.onBus machine.hart address machine.bus := by
  have stillMissed : (prepare instruction machine).hart.tlb.lookup address kind = none := by
    cases instruction <;> exact missed
  have stillBypasses : Bypasses (prepare instruction machine).hart kind := by
    cases instruction <;> exact bypasses
  rw [bus_execute sound access, locate_of_miss stillMissed, translate_of_bypasses stillBypasses,
    ← bus_prepare instruction]
  dsimp only
  cases (prepare instruction machine).bus.findRegion address with
  | none => rfl
  | some region => rfl

end Machine

end Rv32
