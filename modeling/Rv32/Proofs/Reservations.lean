import Rv32.Proofs.CsrAccess
import Rv32.Proofs.CycleBudget
import Rv32.Proofs.Sessions

/-!
# What a conditional store depends on

A load can reserve its physical address, and a conditional store succeeds where the reservation is
held. Whether it is held is a matter of history: `ReservationEvent` lists what counts, which is a
reserving load that completes, a conditional store however it ends, and a hard reset. The events of
a session are those of its calls and turns in their order (`Machine.sessionEvents`).

The reservation that a hart holds is what the latest event leaves (`Machine.reservation_session`),
because everything else leaves it alone (`Issue.reservation_outcome`). `Machine.reservations_exact`
draws the conclusion for conditional stores.
-/

namespace Rv32

/-! ## Instructions that leave the reservation alone -/

/-- The instructions that work on the reservation. -/
def Instruction.isReserving : Instruction → Bool
  | .loadReserved .. | .storeConditional .. => true
  | _ => false

namespace Hart

theorem reservation_enterTrap (hart : Hart) (cause : Cause) :
    (hart.enterTrap cause).value.reservation = hart.reservation := by
  obtain ⟨_, _, _, _, _, _, _, entered⟩ := hart.enterTrap_frame cause
  rw [entered]

theorem reservation_writeCsr (hart : Hart) (register : Csr) (value : Word) :
    (hart.writeCsr register value).value.reservation = hart.reservation := by
  obtain ⟨_, _, _, _, _, _, _, _, written⟩ := hart.writeCsr_frame register value
  rw [written]

end Hart

namespace Machine

/-- From one machine to the other the reservation stayed the same. -/
def ReservationKept (before after : Machine) : Prop :=
  after.hart.reservation = before.hart.reservation

namespace ReservationKept

theorem refl (machine : Machine) : machine.ReservationKept machine := rfl

theorem trans (first second third : Machine) (left : first.ReservationKept second)
    (right : second.ReservationKept third) : first.ReservationKept third :=
  Eq.trans right left

theorem of_hartKept {before after : Machine} (kept : before.HartKept after) :
    before.ReservationKept after :=
  congrArg Hart.reservation kept

theorem of_hartCached {before after : Machine} (cached : before.HartCached after) :
    before.ReservationKept after :=
  Hart.EqModTlb.apply (fun _ _ => rfl) cached

theorem modifyHart {change : Hart → Hart}
    (same : ∀ hart : Hart, (change hart).reservation = hart.reservation) :
    (Machine.modifyHart change).Within ReservationKept :=
  fun machine => same machine.hart

theorem updateHart {change : Hart → Logged Hart}
    (same : ∀ hart : Hart, (change hart).value.reservation = hart.reservation) :
    (Machine.updateHart change).Within ReservationKept :=
  fun machine => same machine.hart

theorem locate (address : Word) (kind : AccessKind) :
    (Machine.locate address kind).Within ReservationKept :=
  fun machine => .of_hartCached (locate_hartCached address kind machine)

theorem read (physical : Word) (region? : Option Region) (width : Width) :
    (readLocated physical region? width).Within ReservationKept :=
  fun machine => .of_hartKept (readLocated_hartKept physical region? width machine)

theorem write (physical : Word) (region? : Option Region) (value : Word) (width : Width) :
    (writeLocated physical region? value width).Within ReservationKept :=
  fun machine => .of_hartKept (writeLocated_hartKept physical region? value width machine)

theorem accessCsr (rd : Reg) (address : CsrAddress) (reads writes : Bool)
    (change : Word → Word) (raw length : Word) :
    (Machine.accessCsr rd address reads writes change raw length).Within ReservationKept := by
  refine .bind trans (.lift refl) fun hart => ?_
  split
  · rename_i register allowed found
    cases writes with
    | false => exact .lift (modifyHart fun _ => rfl)
    | true =>
        refine .bind trans (.lift (updateHart fun hart => ?_)) fun _ => .lift ?_
        · exact hart.reservation_writeCsr register _
        · exact modifyHart fun _ => rfl
  · exact .throw refl _

theorem waitForInterrupt (length : Word) :
    (Machine.waitForInterrupt length).Within ReservationKept := by
  intro machine
  unfold Machine.waitForInterrupt
  rw [Effect.outcome_bind, Effect.outcome_getHart]
  dsimp only
  rw [Effect.outcome_ite, Effect.outcome_ite]
  split
  · split <;> rfl
  · rfl

theorem require (allowed : Bool) (raw : Word) {next : Attempt Unit}
    (rest : next.Within ReservationKept) :
    Attempt.Within ReservationKept (Machine.require allowed raw >>= fun _ => next) :=
  .bind trans (.ite (.pure refl _) (.throw refl _)) fun _ => rest

/-- All other instructions leave the reservation alone, also if they fail. -/
theorem execute {instruction : Instruction} (other : instruction.isReserving = false)
    (raw length : Word) : (Machine.execute instruction raw length).Within ReservationKept := by
  refine .bind trans (.lift refl) fun hart => ?_
  cases instruction with
  | load op rd rs1 offset =>
      refine .bind trans (.guard refl (.bind trans (locate _ _) fun place => .lift (read _ _ _)))
        fun value => .lift ?_
      exact modifyHart fun _ => rfl
  | store width rs2 rs1 offset =>
      refine .bind trans (.guard refl (.bind trans (locate _ _) fun place => .lift (write _ _ _ _)))
        fun _ => .lift ?_
      exact modifyHart fun _ => rfl
  | amo op rd rs1 rs2 =>
      refine .bind trans (.guard refl (.bind trans (locate _ _) fun place => ?_)) fun old =>
        .lift ?_
      · refine .bind trans (.lift (read _ _ _)) fun old => ?_
        exact .bind trans (.lift (write _ _ _ _)) fun _ => .pure refl _
      · exact modifyHart fun _ => rfl
  | csr op rd number rs1 => exact accessCsr _ _ _ _ _ _ _
  | csrImm op rd number imm => exact accessCsr _ _ _ _ _ _ _
  | loadReserved rd rs1 => cases other
  | storeConditional rd rs1 rs2 => cases other
  | ecall => exact .throw refl _
  | ebreak => exact .throw refl _
  | sret =>
      refine require _ _ (.lift (updateHart fun hart => ?_))
      rw [hart.value_returnFromSupervisor]
  | mret =>
      refine require _ _ (.lift (updateHart fun hart => ?_))
      rw [hart.value_returnFromMachine]
  | wfi => exact require _ _ (.lift (waitForInterrupt length))
  | sfenceVma rs1 rs2 =>
      refine require _ _ (.bind trans (.lift (updateHart fun _ => rfl)) fun _ => .lift ?_)
      exact modifyHart fun _ => rfl
  | _ => exact .lift (modifyHart fun _ => rfl)

end ReservationKept

/-! ## Instructions on the reservation -/

section Reserving

variable {machine after : Machine} {rd rs1 rs2 : Reg} {raw length : Word}

/-- A reserving load that fails has left the reservation alone. -/
theorem reservation_of_loadReserved_error {raised : Exception}
    (failed : (execute (.loadReserved rd rs1) raw length).outcome machine =
      (.error raised, after)) : after.hart.reservation = machine.hart.reservation := by
  rcases execute_error_hart failed with same | ⟨⟨_, _, _, other⟩, -⟩
  · rw [same]
  · cases other

/-- A reserving load that completes holds the physical address that it has located. -/
theorem execute_loadReserved_ok
    (ran : (execute (.loadReserved rd rs1) raw length).outcome machine = (.ok (), after)) :
    ∃ physical region? located,
      (locate (machine.hart.x rs1) .load).outcome machine = (.ok (physical, region?), located) ∧
        after.hart.reservation = some physical := by
  by_cases aligned : Width.word.Aligned (machine.hart.x rs1)
  · have access : (Instruction.loadReserved rd rs1).access machine.hart =
        some (machine.hart.x rs1, .load) := if_pos aligned
    rw [execute_of_access access] at ran
    unfold prepare at ran
    dsimp only at ran
    rcases reached : (locate (machine.hart.x rs1) .load).outcome machine with
      ⟨raised | ⟨physical, region?⟩, located⟩
    · rw [reached] at ran
      cases ran
    · rw [reached] at ran
      refine ⟨physical, region?, located, rfl, ?_⟩
      cases ran
      cases region? with
      | none => rfl
      | some region => rfl
  · unfold execute at ran
    rw [Attempt.outcome_lift_bind, Effect.outcome_getHart] at ran
    obtain ⟨_, _, loaded, -⟩ := Attempt.outcome_bind_eq_ok.1 ran
    unfold loadReserved at loaded
    dsimp only at loaded
    rw [Attempt.outcome_ite, if_pos aligned] at loaded
    cases loaded

/-- What a conditional store does once its address is located: if the reservation is held there, it
stores and reports success with zero, else it reports failure with one. -/
def completeConditional (machine : Machine) (rd rs2 : Reg) (length physical : Word)
    (region? : Option Region) (located : Machine) : Machine :=
  if machine.hart.reservation = some physical then
    { hart := (located.hart.setX rd 0).advance length
      bus := ((writeLocated physical region? (machine.hart.x rs2) .word).outcome located).2.bus }
  else { located with hart := (located.hart.setX rd 1).advance length }

/-- A store to an aligned address that is located writes there. -/
theorem store_outcome {address value : Word} {physical : Word} {region? : Option Region}
    {width : Width} (aligned : width.Aligned address)
    (located : (locate address .store).outcome machine = (.ok (physical, region?), after)) :
    (store address value width).outcome machine =
      (.ok (), ((writeLocated physical region? value width).outcome after).2) := by
  unfold store
  dsimp only
  rw [Attempt.outcome_ite, if_neg (not_not_intro aligned), Attempt.outcome_bind_ok located]
  rfl

theorem execute_storeConditional_aligned (aligned : Width.word.Aligned (machine.hart.x rs1)) :
    (execute (.storeConditional rd rs1 rs2) raw length).outcome machine =
      match (locate (machine.hart.x rs1) .store).outcome machine.release with
      | (.ok (physical, region?), located) =>
        (.ok (), machine.completeConditional rd rs2 length physical region? located)
      | (.error raised, after) => (.error raised, after) := by
  have access : (Instruction.storeConditional rd rs1 rs2).access machine.hart =
      some (machine.hart.x rs1, .store) := if_pos aligned
  rw [execute_of_access access]
  unfold prepare
  dsimp only
  rcases (locate (machine.hart.x rs1) .store).outcome machine.release with
    ⟨raised | ⟨physical, region?⟩, located⟩
  · rfl
  · dsimp only
    unfold complete completeConditional
    rw [Effect.outcome_ite]
    split
    · cases region? with
      | none => rfl
      | some region => rfl
    · rfl

theorem execute_storeConditional_misaligned
    (misaligned : ¬ Width.word.Aligned (machine.hart.x rs1)) :
    (execute (.storeConditional rd rs1 rs2) raw length).outcome machine =
      (.error (.storeAddressMisaligned (machine.hart.x rs1)), machine.release) := by
  unfold execute
  rw [Attempt.outcome_lift_bind, Effect.outcome_getHart]
  refine Attempt.outcome_bind_error ?_
  unfold storeConditional
  rw [Attempt.outcome_lift_bind, Attempt.outcome_lift_bind]
  dsimp only
  rw [Attempt.outcome_ite, if_pos misaligned]
  rfl

/-- However a conditional store ends, no reservation is left. -/
theorem reservation_storeConditional :
    ((execute (.storeConditional rd rs1 rs2) raw length).outcome machine).2.hart.reservation =
      none := by
  by_cases aligned : Width.word.Aligned (machine.hart.x rs1)
  · have kept := ReservationKept.locate (machine.hart.x rs1) .store machine.release
    rw [execute_storeConditional_aligned aligned]
    rcases located : (locate (machine.hart.x rs1) .store).outcome machine.release with
      ⟨raised | ⟨physical, region?⟩, after⟩
    · rw [located] at kept
      exact kept
    · rw [located] at kept
      dsimp only
      unfold completeConditional
      split
      · exact kept
      · exact kept
  · rw [execute_storeConditional_misaligned aligned]
    rfl

end Reserving

end Machine

/-! ## Events -/

/-- What matters to later conditional stores: a reserving load that completed, with the physical
address of its word; a conditional store, whether it succeeded, failed or raised an exception; and a
hard reset. -/
inductive ReservationEvent where
  | reserved (physical : Word)
  | conditional
  | hardReset
deriving DecidableEq, Repr

namespace ReservationEvent

/-- The reservation after an event. -/
def held : ReservationEvent → Option Word
  | reserved physical => some physical
  | conditional | hardReset => none

/-- The reservation after a sequence of events, if it was `before` at the start. -/
def heldAfter (before : Option Word) (events : List ReservationEvent) : Option Word :=
  events.foldl (fun _ event => event.held) before

theorem heldAfter_append (before : Option Word) (first second : List ReservationEvent) :
    heldAfter before (first ++ second) = heldAfter (heldAfter before first) second :=
  List.foldl_append ..

/-- Only the latest event counts. -/
theorem heldAfter_eq (before : Option Word) (events : List ReservationEvent) :
    heldAfter before events = (events.getLast?.map held).getD before := by
  induction events generalizing before with
  | nil => rfl
  | cons first rest ih =>
      have later : heldAfter before (first :: rest) = heldAfter first.held rest := rfl
      rw [later, ih, List.getLast?_cons]
      cases rest.getLast? <;> rfl

/-- Where nothing was reserved at the start, an address is reserved exactly if a reserving load of
it is the latest event. -/
theorem heldAfter_none_eq_some_iff {events : List ReservationEvent} {physical : Word} :
    heldAfter none events = some physical ↔ events.getLast? = some (reserved physical) := by
  rw [heldAfter_eq]
  rcases events.getLast? with _ | last
  · simp
  · cases last <;> simp [held]

end ReservationEvent

namespace Machine

/-- An instruction that a turn executes: how it was fetched, and the machine after that. -/
structure Issue where
  instruction : Instruction
  raw : Word
  length : Word
  fetched : Machine

/-- How the instruction ends. -/
def Issue.outcome (issue : Issue) : Except Exception Unit × Machine :=
  (execute issue.instruction issue.raw issue.length).outcome issue.fetched

/-- The instruction that the next turn executes. There is none if the hart waits, if it takes an
interrupt, and if the instruction cannot be fetched or decoded. -/
def issue (machine : Machine) : Option Issue :=
  if machine.hart.halted = true ∨ machine.hart.nextInterrupt.isSome = true then none
  else
    match fetch.outcome machine.counted with
    | (.ok raw, fetched) =>
      match decodeFetched raw with
      | .ok (instruction, length) => some ⟨instruction, raw, length, fetched⟩
      | .error _ => none
    | (.error _, _) => none

/-- The event that the execution of an instruction is. -/
def Issue.event (issue : Issue) : Option ReservationEvent :=
  match issue.instruction with
  | .loadReserved _ rs1 =>
    match issue.outcome.1, (locate (issue.fetched.hart.x rs1) .load).outcome issue.fetched with
    | .ok (), (.ok (physical, _), _) => some (.reserved physical)
    | _, _ => none
  | .storeConditional .. => some .conditional
  | _ => none

/-- The events of the next turn. -/
def turnEvents (machine : Machine) : List ReservationEvent :=
  (machine.issue.bind Issue.event).toList

/-- The events of a number of turns. -/
def turnsEvents : (turns : Nat) → Machine → List ReservationEvent
  | 0, _ => []
  | turns + 1, machine => machine.turnEvents ++ turnsEvents turns machine.turn

end Machine

/-- The events of a call. -/
def HostCall.events (call : HostCall) (machine : Machine) : List ReservationEvent :=
  match call with
  | .serve (.step cycles) => machine.turnsEvents (machine.turnsWithin cycles)
  | .serve (.act .resetHard) => [.hardReset]
  | _ => []

/-- Whether the host gives the hart another state by a call. -/
def HostCall.restores : HostCall → Bool
  | .serve (.act (.restore _)) => true
  | _ => false

/-- The events of a session. -/
def Machine.sessionEvents : List HostCall → Machine → List ReservationEvent
  | [], _ => []
  | call :: rest, machine => call.events machine ++ sessionEvents rest (call.apply machine)

/-! ## One turn -/

namespace Machine

/-- What an instruction leaves of the reservation is what its event says. -/
theorem Issue.reservation_outcome (issue : Issue) :
    issue.outcome.2.hart.reservation =
      ReservationEvent.heldAfter issue.fetched.hart.reservation issue.event.toList := by
  rcases issue with ⟨instruction, raw, length, fetched⟩
  cases reserving : instruction.isReserving with
  | false =>
      have kept := ReservationKept.execute reserving raw length fetched
      have none : Issue.event ⟨instruction, raw, length, fetched⟩ = none := by
        cases instruction <;> first | rfl | cases reserving
      rw [none]
      exact kept
  | true =>
      cases instruction with
      | loadReserved rd rs1 =>
          unfold Issue.event Issue.outcome
          dsimp only
          rcases ran : (execute (.loadReserved rd rs1) raw length).outcome fetched with
            ⟨raised | done, after⟩
          · exact reservation_of_loadReserved_error ran
          · obtain ⟨physical, region?, located, reached, held⟩ := execute_loadReserved_ok ran
            rw [reached]
            exact held
      | storeConditional rd rs1 rs2 => exact reservation_storeConditional
      | _ => cases reserving

variable {machine : Machine} {issue : Issue}

theorem issue_eq_some (isIssue : machine.issue = some issue) :
    machine.hart.halted = false ∧ machine.hart.nextInterrupt = none ∧
      fetch.outcome machine.counted = (.ok issue.raw, issue.fetched) ∧
      decodeFetched issue.raw = .ok (issue.instruction, issue.length) := by
  unfold Machine.issue at isIssue
  split at isIssue
  · cases isIssue
  · rename_i goesOn
    rw [not_or, Bool.not_eq_true, Bool.not_eq_true, Option.isSome_eq_false_iff,
      Option.isNone_iff_eq_none] at goesOn
    rcases wasFetched : fetch.outcome machine.counted with ⟨raised | raw, fetched⟩
    · rw [wasFetched] at isIssue
      cases isIssue
    · rw [wasFetched] at isIssue
      dsimp only at isIssue
      rcases decoded : decodeFetched raw with failure | ⟨instruction, length⟩
      · rw [decoded] at isIssue
        cases isIssue
      · rw [decoded] at isIssue
        cases isIssue
        exact ⟨goesOn.1, goesOn.2, rfl, decoded⟩

/-- A turn that executes an instruction ends as that does, in the handler if it fails. -/
theorem turn_of_issue (isIssue : machine.issue = some issue) :
    machine.turn =
      match issue.outcome with
      | (.ok (), after) => after
      | (.error raised, after) => after.trapped (.exception raised) := by
  obtain ⟨running, uninterrupted, wasFetched, decoded⟩ := issue_eq_some isIssue
  rw [turn_running running, ← cycleBy_executeNext, cycleBy_outcome, uninterrupted]
  dsimp only
  rw [executeNext_of_fetched wasFetched decoded]
  unfold Issue.outcome
  rcases (execute issue.instruction issue.raw issue.length).outcome issue.fetched with
    ⟨raised | done, after⟩ <;> rfl

theorem reservation_fetched (isIssue : machine.issue = some issue) :
    issue.fetched.hart.reservation = machine.hart.reservation := by
  have kept : machine.counted.ReservationKept _ := .of_hartCached (fetch_hartCached machine.counted)
  rw [(issue_eq_some isIssue).2.2.1] at kept
  exact kept

/-- A turn that executes nothing leaves the reservation alone. -/
theorem reservation_turn_of_no_issue (nothing : machine.issue = none) :
    machine.turn.hart.reservation = machine.hart.reservation := by
  cases waits : machine.hart.halted with
  | true =>
      have same : machine.turn = machine := if_pos waits
      rw [same]
  | false =>
      rw [turn_running waits, ← cycleBy_executeNext, cycleBy_outcome]
      cases pending : machine.hart.nextInterrupt with
      | some interrupt => exact machine.hart.reservation_enterTrap _
      | none =>
          have goesOn :
              ¬ (machine.hart.halted = true ∨ machine.hart.nextInterrupt.isSome = true) := by
            simp [waits, pending]
          have kept : machine.counted.ReservationKept _ :=
            .of_hartCached (fetch_hartCached machine.counted)
          unfold Machine.issue at nothing
          rw [if_neg goesOn] at nothing
          dsimp only
          unfold executeNext
          rw [Attempt.outcome_bind]
          rcases wasFetched : fetch.outcome machine.counted with ⟨raised | raw, fetched⟩
          · rw [wasFetched] at kept
            exact (fetched.hart.reservation_enterTrap _).trans kept
          · rw [wasFetched] at nothing kept
            dsimp only at nothing ⊢
            unfold executeFetched
            rcases decoded : decodeFetched raw with failure | ⟨instruction, length⟩
            · exact (fetched.hart.reservation_enterTrap _).trans kept
            · rw [decoded] at nothing
              cases nothing

/-- What a turn leaves of the reservation is what its events say. -/
theorem reservation_turn (machine : Machine) :
    machine.turn.hart.reservation =
      ReservationEvent.heldAfter machine.hart.reservation machine.turnEvents := by
  unfold turnEvents
  cases isIssue : machine.issue with
  | none => exact reservation_turn_of_no_issue isIssue
  | some issue =>
      have ended := issue.reservation_outcome
      rw [reservation_fetched isIssue] at ended
      rw [turn_of_issue isIssue]
      dsimp only [Option.bind_some]
      rw [← ended]
      rcases issue.outcome with ⟨raised | done, after⟩
      · exact after.hart.reservation_enterTrap _
      · rfl

/-! ## Whole sessions -/

theorem reservation_afterTurns (turns : Nat) (machine : Machine) :
    (afterTurns turns machine).hart.reservation =
      ReservationEvent.heldAfter machine.hart.reservation (turnsEvents turns machine) := by
  induction turns generalizing machine with
  | zero => rfl
  | succ turns ih =>
      unfold afterTurns turnsEvents
      rw [ih, reservation_turn, ReservationEvent.heldAfter_append]

theorem reservation_apply {call : HostCall} (live : call.restores = false) (machine : Machine) :
    (call.apply machine).hart.reservation =
      ReservationEvent.heldAfter machine.hart.reservation (call.events machine) := by
  cases call with
  | serve request =>
      cases request with
      | step cycles =>
          change (machine.run cycles).value.hart.reservation = _
          rw [run_eq_afterTurns]
          exact reservation_afterTurns _ machine
      | act action =>
          cases action with
          | writeCsr address value =>
              unfold HostCall.apply Request.serve HostAction.apply Operation.apply
                Hart.writeAddress Operation.ofHost
              dsimp only
              split
              · rename_i after written
                split at written
                · cases written
                  exact machine.hart.reservation_writeCsr _ _
                · cases written
              · rfl
          | restore snapshot => cases live
          | attach range device =>
              unfold HostCall.apply Request.serve HostAction.apply
              dsimp only
              split <;> rfl
          | _ => rfl
  | _ => rfl

/-- What a session leaves of the reservation is what its events say. -/
theorem reservation_session {calls : List HostCall}
    (live : ∀ call ∈ calls, call.restores = false) (machine : Machine) :
    (session calls machine).2.hart.reservation =
      ReservationEvent.heldAfter machine.hart.reservation (sessionEvents calls machine) := by
  induction calls generalizing machine with
  | nil => rfl
  | cons call rest ih =>
      have first := reservation_apply (live call List.mem_cons_self) machine
      have later := ih (fun call member => live call (List.mem_cons_of_mem _ member))
        (call.apply machine)
      unfold sessionEvents
      rw [ReservationEvent.heldAfter_append, ← first]
      exact later

/-- An instruction that works on the reservation: a reserving load that completes, or a conditional
store. -/
def Issue.Reserving (issue : Issue) : Prop :=
  match issue.instruction with
  | .loadReserved .. => issue.outcome.1 = .ok ()
  | .storeConditional .. => True
  | _ => False

theorem Issue.event_eq_none {issue : Issue} (other : ¬ issue.Reserving) : issue.event = none := by
  unfold Issue.Reserving at other
  unfold Issue.event
  split at other
  · split
    · rename_i completed _
      exact absurd completed other
    · rfl
  · exact absurd trivial other
  · rfl

/-- A turn that neither completes a reserving load nor executes a conditional store leaves the
reservation alone. -/
theorem reservation_turn_of_quiet
    (quiet : ∀ issue, machine.issue = some issue → ¬ issue.Reserving) :
    machine.turn.hart.reservation = machine.hart.reservation := by
  rw [reservation_turn]
  unfold turnEvents
  cases isIssue : machine.issue with
  | none => rfl
  | some issue =>
      dsimp only [Option.bind_some]
      rw [Issue.event_eq_none (quiet issue isIssue)]
      rfl

/-- What a conditional store that completes did, by whether the address it located was reserved. -/
theorem Issue.storeConditional_completes {after : Machine} {rd rs1 rs2 : Reg}
    (isConditional : issue.instruction = .storeConditional rd rs1 rs2)
    (ran : issue.outcome = (.ok (), after)) :
    let address := issue.fetched.hart.x rs1
    let released := issue.fetched.release
    ∃ physical region? located,
      (locate address .store).outcome released = (.ok (physical, region?), located) ∧
      (issue.fetched.hart.reservation = some physical →
        after.bus = ((store address (issue.fetched.hart.x rs2) .word).outcome released).2.bus ∧
          after.hart = (located.hart.setX rd 0).advance issue.length) ∧
      (issue.fetched.hart.reservation ≠ some physical →
        after.bus = located.bus ∧
          after.hart = (located.hart.setX rd 1).advance issue.length) := by
  intro address released
  unfold Issue.outcome at ran
  rw [isConditional] at ran
  by_cases aligned : Width.word.Aligned address
  · rw [execute_storeConditional_aligned aligned] at ran
    rcases reached : (locate address .store).outcome released with
      ⟨raised | ⟨physical, region?⟩, located⟩
    · rw [reached] at ran
      cases ran
    · rw [reached] at ran
      cases ran
      refine ⟨physical, region?, located, rfl, fun holds => ?_, fun lacks => ?_⟩
      · rw [store_outcome aligned reached, completeConditional, if_pos holds]
        exact ⟨rfl, rfl⟩
      · rw [completeConditional, if_neg lacks]
        exact ⟨rfl, rfl⟩
  · rw [execute_storeConditional_misaligned aligned] at ran
    cases ran

/-- What becomes of a conditional store is decided by history. In every session that starts with a
hart in its initial state and in which the host gives it no other state, and after any number of
turns of the run that comes next, the following holds. (1) If the next turn executes a conditional
store that completes, this has located a physical address. If the latest event is a reserving load
of that address, it does on the bus what a plain store of its operand does, and writes zero to its
destination; if not, it does no more on the bus than to locate the address, and writes one. (2) If
the next turn neither completes a reserving load nor executes a conditional store, it leaves the
reservation alone. -/
theorem reservations_exact (config : HartConfig) (bus : Bus) {calls : List HostCall}
    (live : ∀ call ∈ calls, call.restores = false) (turns : Nat) :
    let start := initial config bus
    let machine := afterTurns turns (session calls start).2
    let events := sessionEvents calls start ++ turnsEvents turns (session calls start).2
    (∀ issue after rd rs1 rs2, machine.issue = some issue →
      issue.instruction = .storeConditional rd rs1 rs2 → issue.outcome = (.ok (), after) →
        machine.turn = after ∧
        let address := issue.fetched.hart.x rs1
        let released := issue.fetched.release
        ∃ physical region? located,
          (locate address .store).outcome released = (.ok (physical, region?), located) ∧
          (events.getLast? = some (.reserved physical) →
            after.bus = ((store address (issue.fetched.hart.x rs2) .word).outcome released).2.bus ∧
              after.hart = (located.hart.setX rd 0).advance issue.length) ∧
          (events.getLast? ≠ some (.reserved physical) →
            after.bus = located.bus ∧
              after.hart = (located.hart.setX rd 1).advance issue.length)) ∧
      ((∀ issue, machine.issue = some issue → ¬ issue.Reserving) →
        machine.turn.hart.reservation = machine.hart.reservation) := by
  intro start machine events
  have history : machine.hart.reservation = ReservationEvent.heldAfter none events := by
    have before := reservation_session live start
    have later := reservation_afterTurns turns (session calls start).2
    rw [before, ← ReservationEvent.heldAfter_append] at later
    exact later
  refine ⟨fun issue after rd rs1 rs2 isIssue isConditional ran => ?_, reservation_turn_of_quiet⟩
  have ended := turn_of_issue isIssue
  rw [ran] at ended
  obtain ⟨physical, region?, located, reached, success, failure⟩ :=
    Issue.storeConditional_completes isConditional ran
  rw [reservation_fetched isIssue, history] at success failure
  rw [ReservationEvent.heldAfter_none_eq_some_iff] at success
  rw [ne_eq, ReservationEvent.heldAfter_none_eq_some_iff] at failure
  exact ⟨ended, physical, region?, located, reached, success, failure⟩

/-- A program that reserves the word behind it, waits an instruction and then stores on that
condition. -/
def reservingProgram : Bus :=
  .allMemory
    [0x93, 0x00, 0x00, 0x01, 0xAF, 0xA2, 0x00, 0x10, 0x13, 0x00, 0x00, 0x00, 0xAF, 0xA0, 0x10, 0x18,
      0, 0, 0, 0]

/-- The machine that has just reserved the word at 16. -/
def reserver : Machine := (session [.serve (.step 2)] (initial ⟨0, 0⟩ reservingProgram)).2

/-- The word stays reserved over the next turn, and in the one after that the store takes place,
which writes its address where a zero was, and reports so with a zero. -/
theorem reserver_stores :
    reserver.turn.hart.reservation = some 16 ∧
      ∃ issue, reserver.turn.issue = some issue ∧
        issue.instruction = .storeConditional 1 1 1 ∧ issue.fetched.hart.x 1 = 16 ∧
        reserver.turn.turn.bus = ((store 16 16 .word).outcome issue.fetched.release).2.bus ∧
        reserver.turn.bus.word 16 = 0 ∧ reserver.turn.turn.bus.word 16 = 16 ∧
        reserver.turn.turn.hart.x 1 = 0 := by
  have live : ∀ call ∈ [HostCall.serve (.step 2)], call.restores = false := by decide
  obtain ⟨-, keeps⟩ := reservations_exact ⟨0, 0⟩ reservingProgram live 0
  obtain ⟨stores, -⟩ := reservations_exact ⟨0, 0⟩ reservingProgram live 1
  have begun : (session [.serve (.step 2)] (initial ⟨0, 0⟩ reservingProgram)).2 = reserver := by
    rw [reserver]
  simp only [begun, afterTurns] at keeps stores
  have between : reserver.issue.map Issue.instruction = some (.opImm .addi 0 0 0) := by
    decide +kernel
  have next : (reserver.turn.issue.map fun issue =>
      (issue.instruction, issue.outcome.1.toBool, issue.fetched.hart.x 1,
        ((locate 16 .store).outcome issue.fetched.release).1.toOption.map Prod.fst)) =
      some (.storeConditional 1 1 1, true, 16, some 16) := by
    decide +kernel
  have held : reserver.hart.reservation = some 16 := by decide +kernel
  have before : reserver.turn.bus.word 16 = 0 := by decide +kernel
  have written : reserver.turn.turn.bus.word 16 = 16 := by decide +kernel
  have latest : (sessionEvents [.serve (.step 2)] (initial ⟨0, 0⟩ reservingProgram) ++
      turnsEvents 1 reserver).getLast? = some (.reserved 16) := by
    decide +kernel
  have kept : reserver.turn.hart.reservation = reserver.hart.reservation := by
    refine keeps fun issue (found : reserver.issue = some issue) => ?_
    rw [found] at between
    unfold Issue.Reserving
    rw [Option.some.inj between]
    exact not_false
  refine ⟨kept.trans held, ?_⟩
  · rcases found : reserver.turn.issue with _ | issue
    · rw [found] at next
      cases next
    · rw [found, Option.map_some, Option.some.injEq, Prod.mk.injEq, Prod.mk.injEq,
        Prod.mk.injEq] at next
      obtain ⟨isConditional, completes, sixteen, place⟩ := next
      rcases ran : issue.outcome with ⟨raised | done, after⟩
      · rw [ran] at completes
        cases completes
      · obtain ⟨ended, physical, region?, located, reached, success, -⟩ :=
          stores issue after 1 1 1 found isConditional ran
        rw [sixteen] at reached success
        rw [reached] at place
        cases place
        obtain ⟨sameBus, sameHart⟩ := success latest
        refine ⟨issue, rfl, isConditional, sixteen, ?_, before, written, ?_⟩
        · exact (congrArg Machine.bus ended).trans sameBus
        · have result : reserver.turn.turn.hart = _ := (congrArg Machine.hart ended).trans sameHart
          rw [result]
          exact (Hart.x_setX ..).trans (if_pos (by decide))

end Machine

end Rv32
