import Rv32.Proofs.Undisturbed

/-!
# Translation caches cannot be seen

In an undisturbed run (`Machine.Undisturbed`) it makes no difference whether the caches are used
or flushed before every access: after every request the machine shows the same snapshot, and the
bus is the same, with the contents of memory, the pages flagged as dirty and the ledger of
accesses to devices (`Machine.history_flushing`).

Turn by turn, the caches of the machine that uses them stay coherent, and the other machine
differs in its caches only (`Machine.cycle_flushing`).
-/

namespace Rv32

namespace Machine

variable {seen : List Word} {machine first second : Machine}

/-! ## Fetching -/

/-- The words that coherent caches spare an access to read have been seen. -/
theorem Coherent.path (coherent : Coherent seen machine) {address : Word} {kind : AccessKind}
    (walked : ∀ location ∈ machine.walked address kind, location ∈ seen) :
    ∀ location ∈ machine.pathOf address kind, location ∈ seen := by
  rcases looked : machine.hart.tlb.lookup address kind with _ | ⟨physical, region⟩
  · unfold Machine.walked at walked
    rw [looked] at walked
    exact walked
  · exact (coherent.settled_of_lookup looked).path

/-- Twins fetch the same parcel. -/
theorem Twins.fetchParcel (twins : Twins seen first second) {address : Word}
    (walked : ∀ location ∈ first.walked address .fetch, location ∈ seen) :
    ∃ result after afterToo, (Machine.fetchParcel address).outcome first = (result, after) ∧
      (Machine.fetchParcel address).outcome second = (result, afterToo) ∧
      Twins seen after afterToo ∧ ((Machine.locate address .fetch).outcome first).2 = after := by
  obtain ⟨result, after, afterToo, ran, ranToo, located⟩ :=
    twins.locate (twins.left.path walked)
  rw [fetchParcel_outcome twins.left.sound, fetchParcel_outcome twins.right.sound, ran, ranToo]
  dsimp only
  rw [located.same.bus]
  exact ⟨_, _, _, rfl, rfl, located, rfl⟩

/-- Twins fetch the same instruction. -/
theorem Twins.fetch (twins : Twins seen first second)
    (walked : ∀ location ∈ walkedAll first.fetches first, location ∈ seen) :
    ∃ result after afterToo, Machine.fetch.outcome first = (result, after) ∧
      Machine.fetch.outcome second = (result, afterToo) ∧
      Twins seen after afterToo ∧ locateAll first.fetches first = after := by
  have samePc : second.hart.pc = first.hart.pc := twins.same.hart.apply fun _ _ => rfl
  unfold Machine.fetch
  rw [Attempt.outcome_lift_bind, Attempt.outcome_lift_bind, Effect.outcome_getHart,
    Effect.outcome_getHart]
  dsimp only
  rw [samePc, Attempt.outcome_ite, Attempt.outcome_ite]
  unfold fetches at walked ⊢
  by_cases aligned : Width.half.Aligned first.hart.pc
  · rw [if_pos aligned] at walked
    rw [if_pos aligned, if_neg (not_not_intro aligned), if_neg (not_not_intro aligned),
      Attempt.outcome_bind, Attempt.outcome_bind]
    unfold fetchedFrom at walked ⊢
    have firstWalked : ∀ location ∈ first.walked first.hart.pc .fetch, location ∈ seen := by
      intro location member
      refine walked location ?_
      split
      · split
        · exact List.mem_append_left _ member
        · exact List.mem_append_left _ member
      · exact List.mem_append_left _ member
    obtain ⟨result, middle, middleToo, fetched, fetchedToo, twinsMiddle, located⟩ :=
      twins.fetchParcel firstWalked
    rw [fetched] at walked ⊢
    rw [fetchedToo]
    cases result with
    | error raised => exact ⟨_, _, _, rfl, rfl, twinsMiddle, located⟩
    | ok low =>
        dsimp only at walked ⊢
        by_cases compressed : Instruction.isCompressed low
        · rw [if_pos compressed, if_pos compressed]
          exact ⟨_, _, _, rfl, rfl, twinsMiddle, located⟩
        · rw [if_neg compressed] at walked
          rw [if_neg compressed, if_neg compressed, Attempt.outcome_bind, Attempt.outcome_bind]
          have secondWalked :
              ∀ location ∈ middle.walked (first.hart.pc + 2) .fetch, location ∈ seen := by
            intro location member
            rw [← located] at member
            refine walked location (List.mem_append_right _ ?_)
            exact List.mem_append_left _ member
          obtain ⟨result, after, afterToo, rest, restToo, twinsAfter, locatedToo⟩ :=
            twinsMiddle.fetchParcel secondWalked
          rw [← located] at locatedToo
          rw [rest, restToo]
          cases result with
          | error raised => exact ⟨_, _, _, rfl, rfl, twinsAfter, locatedToo⟩
          | ok high => exact ⟨_, _, _, rfl, rfl, twinsAfter, locatedToo⟩
  · rw [if_neg aligned, if_pos aligned, if_pos aligned]
    exact ⟨_, _, _, rfl, rfl, twins, rfl⟩

/-! ## Executing -/

/-- Caches that were just emptied are those of a twin. -/
theorem Twins.of_dropTlb (coherent : Coherent seen first) (same : first.EqModTlb second) :
    Twins seen first (second.withTlb .empty) := by
  obtain ⟨tlb, rfl⟩ := same.eq_withTlb
  exact ⟨.of_withTlb first .empty, coherent, coherent.changeHart rfl (.inl rfl)⟩

theorem Twins.prepare (twins : Twins seen first second) (instruction : Instruction) :
    Twins seen (prepare instruction first) (Machine.prepare instruction second) := by
  cases instruction with
  | storeConditional rd rs1 rs2 =>
      obtain ⟨same, left, right⟩ := twins
      obtain ⟨tlb, rfl⟩ := same.eq_withTlb
      exact ⟨.of_withTlb first.release tlb, left.changeHart rfl (.inr ⟨rfl, fun _ => rfl⟩),
        right.changeHart rfl (.inr ⟨rfl, fun _ => rfl⟩)⟩
  | _ => exact twins

/-- Where an address lies does not depend on the reservation. -/
theorem Coherent.bus_locate_prepare (coherent : Coherent seen machine)
    (instruction : Instruction) {address : Word} {kind : AccessKind}
    (path : ∀ location ∈ machine.pathOf address kind, location ∈ seen) :
    ((Machine.locate address kind).outcome (Machine.prepare instruction machine)).2.bus =
      ((Machine.locate address kind).outcome machine).2.bus := by
  cases instruction with
  | storeConditional rd rs1 rs2 =>
      have released : Coherent seen machine.release :=
        coherent.changeHart rfl (.inr ⟨rfl, fun _ => rfl⟩)
      have inside := coherent.inside_path path
      have same : machine.release.hart.translationContext kind =
          machine.hart.translationContext kind := rfl
      obtain ⟨_, located⟩ := coherent.locate_outcome address kind
      obtain ⟨_, locatedReleased⟩ := released.locate_outcome address kind
      have translated := translate_outcome_of_context same inside
      change ((Machine.locate address kind).outcome machine.release).2.bus = _
      rw [located, locatedReleased]
      exact congrArg (fun outcome => outcome.2.bus) translated
  | _ => rfl

theorem access_eq (same : first.EqModTlb second) (instruction : Instruction) :
    instruction.access second.hart = instruction.access first.hart := by
  obtain ⟨tlb, rfl⟩ := same.eq_withTlb
  cases instruction <;> rfl

theorem complete_eq (same : first.EqModTlb second) (instruction : Instruction)
    (length physical : Word) (region? : Option Region) :
    complete instruction second.hart length physical region? =
      complete instruction first.hart length physical region? := by
  obtain ⟨tlb, rfl⟩ := same.eq_withTlb
  cases instruction <;> rfl

theorem pathOf_prepare (instruction : Instruction) (machine : Machine) (address : Word)
    (kind : AccessKind) :
    (prepare instruction machine).pathOf address kind = machine.pathOf address kind := by
  cases instruction <;> rfl

/-- Twins complete an instruction with the same result, if the program leaves the words seen
alone. -/
theorem Twins.complete (twins : Twins seen first second) (instruction : Instruction)
    (start : Hart)
    (length physical : Word) (region? : Option Region)
    (unmodified : ∀ location ∈ seen,
      ((Machine.complete instruction start length physical region?).outcome first).2.bus.word
        location = first.bus.word location) :
    ((Machine.complete instruction start length physical region?).outcome first).2.EqModTlb
        ((Machine.complete instruction start length physical region?).outcome second).2 ∧
      Coherent seen
        ((Machine.complete instruction start length physical region?).outcome first).2 := by
  obtain ⟨same, left, -⟩ := twins
  have blind := complete_blind instruction start length physical region?
  have map := complete_mapKept instruction start length physical region? first
  obtain ⟨tlb, rfl⟩ := same.eq_withTlb
  constructor
  · rw [blind.same]
    exact .of_withTlb _ tlb
  · refine left.change (map.sound left.sound.bus) (fun _ => map.hasRegion) ?_
      (blind.refreshed first)
    intro location member
    unfold Bus.entryAt
    rw [unmodified location member]
    exact .refl _

/-- Twins execute an instruction with the same result. -/
theorem Twins.execute (twins : Twins seen first second) {instruction : Instruction}
    {raw length : Word} (own : first.hart.status.mprv = false)
    (walked : ∀ location ∈ walkedAll (instruction.access first.hart).toList first, location ∈ seen)
    (unmodified : ∀ location ∈ seen,
      ((Machine.execute instruction raw length).outcome first).2.bus.word location =
        (locateAll (instruction.access first.hart).toList first).bus.word location) :
    ∃ result after afterToo,
      (Machine.execute instruction raw length).outcome first = (result, after) ∧
      (Machine.execute instruction raw length).outcome second = (result, afterToo) ∧
      after.EqModTlb afterToo ∧ Coherent seen after := by
  rcases access : instruction.access first.hart with _ | ⟨address, kind⟩
  · obtain ⟨tlb, rfl⟩ := twins.same.eq_withTlb
    have isLocal : (Machine.execute instruction raw length).Local first :=
      execute_local access fun _ => own
    obtain ⟨bus, refreshed, same⟩ := isLocal
    obtain ⟨other, ranToo⟩ := same tlb
    exact ⟨_, _, _, rfl, ranToo, .of_withTlb _ other, twins.left.changeHart bus refreshed⟩
  · rw [access] at walked unmodified
    have path := twins.left.path fun location member =>
      walked location (List.mem_append_left _ member)
    have accessToo := (access_eq twins.same instruction).trans access
    have bus := twins.left.bus_locate_prepare instruction path
    have pathPrepared := path
    rw [← pathOf_prepare instruction] at pathPrepared
    obtain ⟨result, after, afterToo, ran, ranToo, located⟩ :=
      (twins.prepare instruction).locate pathPrepared
    rw [execute_of_access access, ran] at unmodified
    rw [execute_of_access access, execute_of_access accessToo, ran, ranToo]
    rw [ran] at bus
    cases result with
    | error raised => exact ⟨_, _, _, rfl, rfl, located.same, located.left⟩
    | ok place =>
        obtain ⟨physical, region?⟩ := place
        have steady := fun location member =>
          (unmodified location member).trans (congrArg (Bus.word · location) bus.symm)
        obtain ⟨same, coherent⟩ := located.complete instruction _ length physical region? steady
        -- The second twin computes its operands from its own registers, which are the same.
        refine ⟨_, _, _, rfl, rfl, ?_, coherent⟩
        rw [complete_eq twins.same]
        exact same

/-- The next instruction has the same result on a machine with coherent caches and on one that
flushes its caches before each of its accesses. -/
theorem executeNext_flushing (coherent : Coherent seen first) (same : first.EqModTlb second)
    (own : first.hart.status.mprv = false)
    (walked : ∀ location ∈ walkedAll first.nextAccesses first, location ∈ seen)
    (unmodified : ∀ location ∈ seen, (executeNext.outcome first).2.bus.word location =
      (locateAll first.nextAccesses first).bus.word location) :
    ∃ result after afterToo, executeNext.outcome first = (result, after) ∧
      executeNextFlushing.outcome second = (result, afterToo) ∧ after.EqModTlb afterToo ∧
      Coherent seen after := by
  unfold nextAccesses at walked unmodified
  rw [walkedAll_append] at walked
  rw [locateAll_append] at unmodified
  obtain ⟨result, middle, middleToo, fetched, fetchedToo, twins, located⟩ :=
    (Twins.of_dropTlb coherent same).fetch fun location member =>
      walked location (List.mem_append_left _ member)
  unfold executeNext at unmodified ⊢
  rw [Attempt.outcome_bind, fetched] at unmodified
  rw [Attempt.outcome_bind, executeNextFlushing_outcome, fetched, fetchedToo]
  cases result with
  | error raised => exact ⟨_, _, _, rfl, rfl, twins.same, twins.left⟩
  | ok raw =>
      have emptied := Twins.of_dropTlb twins.left twins.same
      dsimp only at unmodified ⊢
      unfold executeFetched at unmodified ⊢
      rcases decoded : decodeFetched raw with failure | ⟨instruction, length⟩
      · exact ⟨_, _, _, rfl, rfl, emptied.same, emptied.left⟩
      · have kept := fetch_hartCached first
        rw [fetched] at kept
        have isNext := nextInstruction_eq_some fetched decoded
        have access : instruction.access first.hart = instruction.access middle.hart := by
          obtain ⟨tlb, same⟩ := kept
          rw [same]
          cases instruction <;> rfl
        rw [decoded] at unmodified
        rw [isNext, Option.bind_some, located, access] at walked unmodified
        refine emptied.execute ?_ ?_ unmodified
        · exact (kept.apply (f := fun hart => hart.status.mprv) fun _ _ => rfl).trans own
        · exact fun location member => walked location (List.mem_append_right _ member)

/-! ## Turns -/

/-- Words that were read before the caches were emptied need not be remembered. -/
theorem Coherent.remember (coherent : Coherent seen machine) :
    Coherent (machine.remembers seen) machine := by
  unfold remembers
  split
  · rename_i empty
    exact .of_empty coherent.sound.bus empty
  · exact coherent

theorem trapped_coherent (coherent : Coherent seen machine) (own : machine.hart.status.mprv = false)
    (cause : Cause) : Coherent seen (machine.trapped cause) :=
  coherent.changeHart rfl
    (Hart.refreshed_enterTrap cause fun lends => Bool.noConfusion (own.symm.trans lends.2.1))

/-- A calm turn is the same on a machine with coherent caches and on one that flushes its caches
before each access, and leaves the caches coherent. -/
theorem cycle_flushing (coherent : Coherent seen first) (same : first.EqModTlb second)
    (calm : Calm seen first) :
    ∃ cost after afterToo, cycle.outcome first = (cost, after) ∧
      (cycleBy executeNextFlushing).outcome second = (cost, afterToo) ∧ after.EqModTlb afterToo ∧
      Coherent (after.remembers (seen ++ first.turnReads)) after := by
  obtain ⟨own, inMemory, unmodified⟩ := calm
  have extended := coherent.extend inMemory fun _ => aligned_of_mem_walkedAll
  rw [← cycleBy_executeNext, cycleBy_outcome, cycleBy_outcome, same.nextInterrupt_eq]
  cases pending : first.hart.nextInterrupt with
  | some interrupt =>
      exact ⟨_, _, _, rfl, rfl, same.trapped _, (trapped_coherent extended own _).remember⟩
  | none =>
      have accesses : first.turnAccesses = first.counted.nextAccesses := by
        unfold turnAccesses
        rw [pending]
      have counted : Coherent (seen ++ first.turnReads) first.counted :=
        extended.changeHart rfl (.inr ⟨rfl, fun _ => rfl⟩)
      have walked : ∀ location ∈ walkedAll first.counted.nextAccesses first.counted,
          location ∈ seen ++ first.turnReads := by
        intro location member
        rw [← accesses] at member
        exact List.mem_append_right seen member
      unfold turnLocated at unmodified
      rw [bus_cycle pending, accesses] at unmodified
      obtain ⟨result, after, afterToo, ran, ranToo, alike, kept⟩ :=
        executeNext_flushing counted same.counted own walked unmodified
      dsimp only
      rw [ran, ranToo]
      cases result with
      | ok done => exact ⟨_, _, _, rfl, rfl, alike, kept.remember⟩
      | error raised =>
          obtain ⟨⟨tlb, reservation, hart⟩, -⟩ := executeNext_error_hart ran
          have ownAfter : after.hart.status.mprv = false := by
            rw [hart]
            exact own
          exact ⟨_, _, _, rfl, rfl, alike.trapped _, (trapped_coherent kept ownAfter _).remember⟩

/-! ## Actions of the host -/

theorem EqModTlb.act (same : first.EqModTlb second) (action : HostAction) :
    (action.apply first).EqModTlb (action.apply second) := by
  cases action with
  | writeCsr address value => exact ⟨same.hart.writeAddress address value, same.bus⟩
  | restore snapshot => exact ⟨same.hart.restore snapshot, same.bus⟩
  | attach range device =>
      unfold HostAction.apply
      dsimp only
      rw [same.bus]
      rcases first.bus.attach range device with refused | ⟨number, bus⟩
      · exact same
      · exact ⟨same.hart, rfl⟩
  | _ =>
      obtain ⟨tlb, rfl⟩ := same.eq_withTlb
      exact ⟨⟨_, rfl⟩, rfl⟩

theorem Coherent.act (coherent : Coherent seen machine) (action : HostAction) :
    Coherent seen (action.apply machine) := by
  cases action with
  | raiseInterrupts mask => exact coherent.changeHart rfl (.inr ⟨rfl, fun _ => rfl⟩)
  | lowerInterrupts mask => exact coherent.changeHart rfl (.inr ⟨rfl, fun _ => rfl⟩)
  | writeCsr address value => exact coherent.changeHart rfl (Operation.refreshed_writeAddress ..)
  | reset => exact coherent.changeHart rfl (.inl rfl)
  | resetHard => exact coherent.changeHart rfl (.inl rfl)
  | restore snapshot => exact coherent.changeHart rfl (Operation.refreshed_restore ..)
  | attach range device =>
      unfold HostAction.apply
      dsimp only
      split
      · rename_i attached
        refine coherent.change (coherent.sound.bus.attach attached)
          (fun _ has => has.attach attached) (fun location member => ?_) (.refl _)
        unfold Bus.entryAt
        rw [Bus.word_attach (coherent.inside location member) attached]
        exact .refl _
      · exact coherent

/-! ## Runs -/

/-- What can be seen of a machine from outside: a snapshot, and all of the bus. -/
def view (machine : Machine) : Snapshot × Bus := (machine.hart.snapshot, machine.bus)

theorem EqModTlb.view_eq (same : first.EqModTlb second) : second.view = first.view :=
  Prod.ext same.hart.snapshot same.bus

theorem EqModTlb.halted_eq (same : first.EqModTlb second) :
    second.hart.halted = first.hart.halted :=
  same.hart.apply fun _ _ => rfl

/-- An undisturbed run looks the same from any machine with coherent caches and from one that
differs in its caches only and flushes these. -/
theorem history_of_coherent {requests : List Request}
    (undisturbed : Undisturbed seen first requests)
    (coherent : Coherent seen first) (same : first.EqModTlb second) :
    (history (runBy executeNextFlushing) requests second).map view =
      (history (runBy executeNext) requests first).map view := by
  -- The first machine stays coherent along the run, and the second one differs in its caches only.
  induction undisturbed generalizing second with
  | done => rfl
  | acted action rest ih =>
      have acted := same.act action
      exact List.cons_eq_cons.2 ⟨acted.view_eq, ih (coherent.act action).remember acted⟩
  | ran rest ih => exact List.cons_eq_cons.2 ⟨same.view_eq, ih coherent same⟩
  | @idled seen first requests budget halted rest ih =>
      have idle := same.idle (budget + 1)
      have kept : Coherent seen (first.idle (budget + 1)) :=
        coherent.changeHart rfl (.inr ⟨rfl, fun _ => rfl⟩)
      rw [history_halted halted, history_halted (same.halted_eq.trans halted)]
      exact List.cons_eq_cons.2 ⟨idle.view_eq, ih kept idle⟩
  | @turned seen first after requests budget cost running calm turn rest ih =>
      obtain ⟨costToo, afterFirst, afterToo, ran, ranToo, alike, kept⟩ :=
        cycle_flushing coherent same calm
      rw [turn] at ran
      cases ran
      rw [history_turn running, history_turn (same.halted_eq.trans running), cycleBy_executeNext,
        turn, ranToo]
      exact ih kept alike

/-- Translation caches cannot be seen: from a machine with empty caches, whatever a host requests,
a run in which page tables stay undisturbed shows the same snapshots and the same bus after every
request as the run of a machine that flushes its caches before every access. -/
theorem history_flushing {start : Machine} {requests : List Request} (sound : start.bus.Sound)
    (empty : start.hart.tlb = .empty) (undisturbed : Undisturbed [] start requests) :
    (history (runBy executeNextFlushing) requests start).map view =
      (history (fun budget machine => (machine.run budget).value) requests start).map view := by
  have plain : (fun budget (machine : Machine) => (machine.run budget).value) =
      runBy executeNext := funext fun budget => funext fun machine => (runBy_eq machine budget).symm
  rw [plain]
  exact history_of_coherent undisturbed (.of_empty sound empty) (.refl start)

/-- An entry that lets S-mode read and execute the lowest four megabytes, behind it an instruction
that loads this entry, and a jump back to that instruction. -/
def loopBus : Bus :=
  .allMemory [0x0B, 0, 0, 0, 0x83, 0x20, 0, 0, 0x6F, 0xF0, 0xDF, 0xFF]

/-- A machine in S-mode that loads the entry by which it finds its way, over and over. -/
def loopMachine : Machine where
  hart := { Hart.initial ⟨4, 0⟩ with privilege := .supervisor, satp := .ofWord _ 0x80000000 }
  bus := loopBus

/-- The second turn fetches the jump from the page that was cached in the first one. -/
theorem loopMachine_history :
    (loopMachine.run 2).value.hart.pc = 4 ∧ (loopMachine.run 2).value.hart.x 1 = 0x4B ∧
      (history (runBy executeNextFlushing) [.step 2] loopMachine).map view =
        (history (fun budget machine => (machine.run budget).value) [.step 2] loopMachine).map
          view := by
  have undisturbed : Undisturbed [] loopMachine [.step 2] := by
    have cost : (cycle.outcome loopMachine).1 = .one := by decide +kernel
    have turn : cycle.outcome loopMachine = (.one, (cycle.outcome loopMachine).2) :=
      Prod.ext cost rfl
    have reads : loopMachine.turnReads = [0, 0] := by decide +kernel
    have isEntry : ∀ location ∈ loopMachine.turnReads, location = 0 := by
      rw [reads]
      exact fun location member => by simpa using member
    have inside : loopMachine.bus.InMemory 0 := Bus.inMemory_allMemory ..
    have steady : (cycle.outcome loopMachine).2.bus.word 0 =
        loopMachine.turnLocated.bus.word 0 := by decide +kernel
    refine .turned rfl ⟨rfl, fun location member => ?_, fun location member => ?_⟩ turn ?_
    · rw [isEntry location member]
      exact inside
    · rw [isEntry location member]
      exact steady
    have running : (cycle.outcome loopMachine).2.hart.halted = false := by decide +kernel
    have own : (cycle.outcome loopMachine).2.hart.status.mprv = false := by decide +kernel
    have costAgain : (cycle.outcome (cycle.outcome loopMachine).2).1 = .one := by decide +kernel
    have turnAgain : cycle.outcome (cycle.outcome loopMachine).2 =
        (.one, (cycle.outcome (cycle.outcome loopMachine).2).2) := Prod.ext costAgain rfl
    have hits : (cycle.outcome loopMachine).2.turnReads = [] := by decide +kernel
    have steadyAgain : (cycle.outcome (cycle.outcome loopMachine).2).2.bus.word 0 =
        (cycle.outcome loopMachine).2.turnLocated.bus.word 0 := by decide +kernel
    refine .turned running ⟨own, ?_, fun location member => ?_⟩ turnAgain (.ran .done)
    · rw [hits]
      exact nofun
    · rw [hits, List.append_nil] at member
      rw [isEntry location (mem_of_mem_remembers member)]
      exact steadyAgain
  exact ⟨by decide +kernel, by decide +kernel, history_flushing (.allMemory _) rfl undisturbed⟩

end Machine

end Rv32
