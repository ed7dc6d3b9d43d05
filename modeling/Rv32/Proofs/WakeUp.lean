import Rv32.Proofs.CsrAccess
import Rv32.Proofs.Sessions

/-!
# No wake-up is lost

A hart that executes `wfi` waits until an interrupt is pending and enabled. It would wait for ever
if such an interrupt could be pending while it waits, since only a new request wakes it. So
`Hart.NothingMissed` is the invariant of all runs: while the hart waits, no enabled interrupt is
pending.

Only the host can break this, by putting contents into the registers of a hart that waits; no other
call of the host does, and neither does any turn (`Machine.Turns.nothingMissed`).
`Machine.no_lost_wakeup` adds how a hart waits and what ends that.
-/

namespace Rv32

namespace Hart

/-- While the hart waits, no enabled interrupt is pending. -/
def NothingMissed (hart : Hart) : Prop :=
  hart.halted = true → hart.interrupts.pendingEnabled = 0

/-- A hart that runs has missed nothing. -/
theorem NothingMissed.of_running {hart : Hart} (running : hart.halted = false) :
    hart.NothingMissed := by
  intro halted
  rw [running] at halted
  cases halted

/-- Of the instructions that complete, only `wfi` makes a hart wait. -/
theorem Retires.halted {before after : Hart} {instruction : Instruction}
    (retires : before.Retires instruction after) (other : instruction ≠ .wfi) :
    after.halted = before.halted := by
  cases retires with
  | ordinary plain same =>
      obtain ⟨registers, tlb, reservation, rfl⟩ := same
      rfl
  | @csr _ _ register writes _ _ _ value isCsr allowed found =>
      cases writes with
      | false => rfl
      | true =>
          obtain ⟨_, _, _, _, _, _, _, _, written⟩ := before.writeCsr_frame register value
          have same := congrArg Hart.halted written
          exact same
  | sret allowed => rw [value_returnFromSupervisor]
  | mret machine => rw [value_returnFromMachine]
  | wfi halted allowed => exact absurd rfl other
  | fence allowed => rfl

/-! ## Requests of devices -/

/-- A hart that waits goes on if a request finds an enabled interrupt pending, and only then. -/
theorem halted_raiseInterrupts (hart : Hart) (mask : Word) :
    (hart.raiseInterrupts mask).halted = true ↔
      hart.halted = true ∧ (hart.raiseInterrupts mask).interrupts.pendingEnabled = 0 := by
  unfold raiseInterrupts
  dsimp only
  rw [Bool.and_eq_true, beq_iff_eq]

theorem pendingEnabled_lower {interrupts : Interrupts} (none : interrupts.pendingEnabled = 0)
    (mask : Word) : (interrupts.lower mask).pendingEnabled = 0 := by
  unfold Interrupts.pendingEnabled Interrupts.lower at *
  dsimp only
  rw [BitVec.and_assoc, BitVec.and_comm (~~~mask), ← BitVec.and_assoc, none]
  exact BitVec.zero_and

end Hart

/-! ## Waiting for an interrupt -/

namespace Machine

/-- To wait for an interrupt is to stop, unless an enabled one is pending already. -/
theorem hart_waitForInterrupt (length : Word) (machine : Machine) :
    ((waitForInterrupt length).outcome machine).2.hart =
      { machine.hart with
        halted := machine.hart.halted || machine.hart.interrupts.pendingEnabled == 0 }.advance
          length := by
  unfold waitForInterrupt
  rw [Effect.outcome_bind, Effect.outcome_getHart]
  dsimp only
  rw [Effect.outcome_ite, Effect.outcome_ite]
  split
  · rename_i none
    rw [none, beq_self_eq_true, Bool.or_true]
    split <;> rfl
  · rename_i some
    rw [beq_false_of_ne some, Bool.or_false]
    rfl

/-- An instruction that completes in a hart that runs has missed nothing. -/
theorem nothingMissed_execute {instruction : Instruction} {raw length : Word}
    {machine after : Machine} (running : machine.hart.halted = false)
    (ran : (execute instruction raw length).outcome machine = (.ok (), after)) :
    after.hart.NothingMissed := by
  by_cases isWait : instruction = .wfi
  · subst isWait
    unfold execute at ran
    rw [Attempt.outcome_lift_bind, Effect.outcome_getHart] at ran
    obtain ⟨-, waited⟩ := require_bind_ok ran
    have same : ((waitForInterrupt length).outcome machine).2.hart = after.hart :=
      congrArg (fun result => result.2.hart) waited
    rw [← same, hart_waitForInterrupt, running, Bool.false_or]
    exact eq_of_beq
  · exact .of_running (((execute_ok ran).halted isWait).trans running)

/-- A turn misses nothing. -/
theorem Turns.nothingMissed {machine after : Machine} {cost : Cost}
    (turn : machine.Turns cost after) (running : machine.hart.halted = false) :
    after.hart.NothingMissed := by
  cases turn with
  | interrupted pending => exact .of_running ((Hart.halted_enterTrap ..).trans running)
  | completed none ran =>
      obtain ⟨raw, instruction, length, fetched, wasFetched, decoded, executed⟩ :=
        executeNext_ok ran
      have kept := fetch_hartCached machine.counted
      rw [wasFetched] at kept
      have goesOn : fetched.hart.halted = false :=
        (kept.apply (f := Hart.halted) fun _ _ => rfl).trans running
      exact nothingMissed_execute goesOn executed
  | @failed ended raised none ran =>
      obtain ⟨tlb, reservation, same⟩ := (executeNext_error_hart ran).1
      have goesOn : ended.hart.halted = false := (congrArg Hart.halted same).trans running
      exact .of_running ((Hart.halted_enterTrap ..).trans goesOn)

/-- Whatever a hart waits for, it misses nothing during a run. -/
theorem nothingMissed_run {machine : Machine} (start : machine.hart.NothingMissed) (budget : Nat) :
    (machine.run budget).value.hart.NothingMissed := by
  refine run_keeps (fun machine => machine.hart.NothingMissed) ?_ ?_ start budget
  · exact fun machine _ running => (cycle_turns machine).nothingMissed running
  · exact fun _ _ missed => missed

end Machine

/-! ## Calls of the host -/

namespace HostCall

/-- Whether the host puts contents into control and status registers by a call. -/
def setsControl : HostCall → Bool
  | .serve (.act (.writeCsr ..)) | .serve (.act (.restore _)) => true
  | _ => false

/-- Whether the host resets the hart by a call. -/
def resets : HostCall → Bool
  | .serve (.act .reset) | .serve (.act .resetHard) => true
  | _ => false

variable {machine : Machine}

theorem nothingMissed_apply (call : HostCall) (plain : call.setsControl = false)
    (start : machine.hart.NothingMissed) : (call.apply machine).hart.NothingMissed := by
  cases call with
  | serve request =>
      cases request with
      | step cycles => exact Machine.nothingMissed_run start cycles
      | act action =>
          cases action with
          | raiseInterrupts mask =>
              exact fun halted => ((Hart.halted_raiseInterrupts ..).1 halted).2
          | lowerInterrupts mask =>
              exact fun halted => Hart.pendingEnabled_lower (start halted) mask
          | writeCsr address value => cases plain
          | reset => exact .of_running rfl
          | resetHard => exact .of_running rfl
          | restore snapshot => cases plain
          | attach range device =>
              unfold apply Request.serve HostAction.apply
              dsimp only
              split <;> exact start
  | _ => exact start

theorem running_of_resets {call : HostCall} (resets : call.resets = true) :
    (call.apply machine).hart.halted = false := by
  cases call with
  | serve request =>
      cases request with
      | step cycles => cases resets
      | act action => cases action <;> first | rfl | cases resets
  | _ => cases resets

/-- A hart that waits goes on waiting during a run, and through all calls but resets and requests
of devices. -/
theorem halted_apply {call : HostCall} (plain : call.setsControl = false)
    (kept : call.resets = false)
    (quiet : ∀ mask, call ≠ .serve (.act (.raiseInterrupts mask)))
    (halted : machine.hart.halted = true) : (call.apply machine).hart.halted = true := by
  cases call with
  | serve request =>
      cases request with
      | step cycles =>
          change (machine.run cycles).value.hart.halted = true
          rw [Machine.run_halted halted]
          exact halted
      | act action =>
          cases action with
          | raiseInterrupts mask => exact absurd rfl (quiet mask)
          | lowerInterrupts mask => exact halted
          | writeCsr address value => cases plain
          | reset => cases kept
          | resetHard => cases kept
          | restore snapshot => cases plain
          | attach range device =>
              unfold apply Request.serve HostAction.apply
              dsimp only
              split <;> exact halted
  | _ => exact halted

/-- Of the calls that put nothing into registers, just two kinds end the waiting of a hart: a reset
always does, and a request of a device does if it finds an enabled interrupt pending. -/
theorem wakes_iff {call : HostCall} (plain : call.setsControl = false)
    (halted : machine.hart.halted = true) :
    (call.apply machine).hart.halted = false ↔
      call.resets = true ∨
        ∃ mask, call = .serve (.act (.raiseInterrupts mask)) ∧
          (call.apply machine).hart.interrupts.pendingEnabled ≠ 0 := by
  constructor
  · intro awake
    cases reset : call.resets with
    | true => exact .inl rfl
    | false =>
        by_cases quiet : ∀ mask, call ≠ .serve (.act (.raiseInterrupts mask))
        · have asleep := halted_apply plain reset quiet halted
          rw [awake] at asleep
          cases asleep
        · obtain ⟨mask, request⟩ := Classical.not_forall.1 quiet
          obtain rfl := Classical.not_not.1 request
          refine .inr ⟨mask, rfl, fun none => ?_⟩
          have asleep := (Hart.halted_raiseInterrupts machine.hart mask).2 ⟨halted, none⟩
          exact Bool.noConfusion (awake.symm.trans asleep)
  · rintro (reset | ⟨mask, rfl, found⟩)
    · exact running_of_resets reset
    · refine Bool.eq_false_iff.2 fun asleep => found ?_
      exact ((Hart.halted_raiseInterrupts machine.hart mask).1 asleep).2

end HostCall

namespace Machine

/-- No wake-up is lost. In every session that starts with a hart in its initial state, and in which
the host puts nothing into control and status registers: while the hart waits, (1) no enabled
interrupt is pending; (2) a run adds its budget to the number of cycles and does nothing else; and
(3) the waiting ends with a reset, and with a request of a device that finds an enabled interrupt
pending, and with no other call. -/
theorem no_lost_wakeup (config : HartConfig) (bus : Bus) {calls : List HostCall}
    (plain : ∀ call ∈ calls, call.setsControl = false) :
    let machine := (session calls (initial config bus)).2
    machine.hart.halted = true →
      machine.hart.interrupts.pendingEnabled = 0 ∧
      (∀ cycles, machine.run cycles =
        pure
          { machine with
            hart :=
              { machine.hart with mcycle := machine.hart.mcycle + BitVec.ofNat 64 cycles } }) ∧
      ∀ call : HostCall, call.setsControl = false →
        ((call.apply machine).hart.halted = false ↔
          call.resets = true ∨
            ∃ mask, call = .serve (.act (.raiseInterrupts mask)) ∧
              (call.apply machine).hart.interrupts.pendingEnabled ≠ 0) := by
  intro machine halted
  have missed : machine.hart.NothingMissed := by
    refine session_keeps (fun machine => machine.hart.NothingMissed)
      (fun call _ plain => call.nothingMissed_apply plain) plain ?_
    exact .of_running rfl
  exact ⟨missed halted, run_halted halted, fun call plain => HostCall.wakes_iff plain halted⟩

/-- A program that enables the software interrupt of M-mode and waits, and then a request for one
that is not enabled. -/
def sleeper : Machine :=
  (session [.serve (.step 3), .serve (.act (.raiseInterrupts 0x2))]
    (initial ⟨0, 0⟩ (.allMemory [0x73, 0x50, 0x44, 0x30, 0x73, 0, 0x50, 0x10]))).2

/-- The request for the enabled interrupt ends the waiting. -/
theorem sleeper_wakes :
    sleeper.hart.halted = true ∧ sleeper.hart.interrupts.mip = 0x2 ∧
      sleeper.hart.interrupts.pendingEnabled = 0 ∧
      (sleeper.run 100).value.hart.mcycle = sleeper.hart.mcycle + 100 ∧
      ((HostCall.serve (.act (.raiseInterrupts 0x8))).apply sleeper).hart.halted = false := by
  have halted : sleeper.hart.halted = true := by decide +kernel
  have pending : sleeper.hart.interrupts.mip = 0x2 := by decide +kernel
  have plain : ∀ call ∈ [HostCall.serve (.step 3), .serve (.act (.raiseInterrupts 0x2))],
      call.setsControl = false := by decide
  obtain ⟨missed, sleeps, wakes⟩ := no_lost_wakeup ⟨0, 0⟩
    (.allMemory [0x73, 0x50, 0x44, 0x30, 0x73, 0, 0x50, 0x10]) plain halted
  have enabled : ((HostCall.serve (.act (.raiseInterrupts 0x8))).apply
      sleeper).hart.interrupts.pendingEnabled ≠ 0 := by decide +kernel
  refine ⟨halted, pending, missed, ?_, (wakes _ rfl).2 (.inr ⟨0x8, rfl, enabled⟩)⟩
  exact congrArg (fun after => after.value.hart.mcycle) (sleeps 100)

end Machine

end Rv32
