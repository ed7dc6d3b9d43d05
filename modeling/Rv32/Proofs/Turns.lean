import Rv32.Proofs.FlushingRun

/-!
# Runs turn by turn

The loop that runs a machine makes a turn as long as its budget lasts and the hart does not wait.
A run is a number of such turns, after which a hart that waits lets the rest of the budget pass
(`Machine.exists_turns_of_run`). So what every turn and the passing of time keep, a run keeps
(`Machine.run_keeps`).
-/

namespace Rv32.Machine

/-- One turn of the loop that runs a machine. There are no more turns once the hart waits. -/
def turn (machine : Machine) : Machine :=
  if machine.hart.halted then machine else (cycle.outcome machine).2

theorem turn_running {machine : Machine} (running : machine.hart.halted = false) :
    machine.turn = (cycle.outcome machine).2 :=
  if_neg (Bool.eq_false_iff.1 running)

/-- A turn that takes an interrupt does nothing else. -/
theorem cycle_of_next {machine : Machine} {taken : Interrupt}
    (isNext : machine.hart.nextInterrupt = some taken) :
    cycle.outcome machine = (.one, machine.trapped (.interrupt taken)) := by
  rw [← cycleBy_executeNext, cycleBy_outcome, isNext]

/-- Otherwise it attempts an instruction. -/
theorem cycle_of_none {machine : Machine} (isNone : machine.hart.nextInterrupt = none) :
    cycle.outcome machine = tick.outcome machine := by
  unfold cycle
  rw [Effect.outcome_bind, Effect.outcome_getHart]
  dsimp only
  rw [isNone]

theorem turn_of_next {machine : Machine} {taken : Interrupt}
    (running : machine.hart.halted = false) (isNext : machine.hart.nextInterrupt = some taken) :
    machine.turn = machine.trapped (.interrupt taken) := by
  rw [turn_running running, cycle_of_next isNext]

/-- The machine after a number of turns. -/
def afterTurns : (turns : Nat) → Machine → Machine
  | 0, machine => machine
  | turns + 1, machine => afterTurns turns machine.turn

theorem afterTurns_succ (turns : Nat) (machine : Machine) :
    afterTurns (turns + 1) machine = (afterTurns turns machine).turn := by
  induction turns generalizing machine with
  | zero => rfl
  | succ turns ih => exact ih machine.turn

theorem idle_zero (machine : Machine) : machine.idle 0 = machine := by
  have same : machine.hart.mcycle + BitVec.ofNat 64 0 = machine.hart.mcycle := BitVec.add_zero _
  unfold idle
  rw [same]

/-- A run makes some turns, and if the hart waits then, lets the rest of its budget pass. -/
theorem exists_turns_of_run (machine : Machine) (budget : Nat) :
    ∃ turns spare, turns ≤ budget ∧
      (machine.run budget).value = (afterTurns turns machine).idle spare ∧
      (spare ≠ 0 → (afterTurns turns machine).hart.halted = true) := by
  rw [← runBy_eq]
  induction budget using Nat.strongRecOn generalizing machine with
  | ind budget ih =>
      cases budget with
      | zero => exact ⟨0, 0, Nat.le_refl 0, (idle_zero machine).symm, fun some => absurd rfl some⟩
      | succ budget =>
          cases waits : machine.hart.halted with
          | true => exact ⟨0, budget + 1, Nat.zero_le _, runBy_halted waits budget, fun _ => waits⟩
          | false =>
              have less := Cost.left_le (cycle.outcome machine).1 budget
              obtain ⟨turns, spare, few, ran, halted⟩ :=
                ih _ (Nat.lt_succ_of_le less) machine.turn
              rw [turn_running waits] at ran
              refine ⟨turns + 1, spare, by omega, ?_, halted⟩
              unfold afterTurns
              rw [runBy_turn waits, cycleBy_executeNext, ran, turn_running waits]

/-- While the hart waits, a run lets its budget pass and does nothing else. -/
theorem run_halted {machine : Machine} (halted : machine.hart.halted = true) (budget : Nat) :
    machine.run budget = pure (machine.idle budget) := by
  unfold run
  match budget with
  | 0 => exact congrArg (pure (f := Logged)) (idle_zero machine).symm
  | 1 => exact if_pos halted
  | budget + 2 => exact if_pos halted

/-- A run for one cycle is a turn. -/
theorem run_one {machine : Machine} (running : machine.hart.halted = false) :
    (machine.run 1).value = machine.turn := by
  have goesOn : ¬ machine.hart.halted = true := Bool.eq_false_iff.1 running
  rw [turn_running running]
  exact congrArg Logged.value (if_neg goesOn)

section Keeps

variable (kept : Machine → Prop)
  (turns : ∀ machine, kept machine → machine.hart.halted = false → kept (cycle.outcome machine).2)

include turns

theorem afterTurns_keeps {machine : Machine} (start : kept machine) (count : Nat) :
    kept (afterTurns count machine) := by
  induction count with
  | zero => exact start
  | succ count ih =>
      rw [afterTurns_succ]
      unfold turn
      split
      · exact ih
      · rename_i running
        exact turns _ ih (Bool.eq_false_iff.2 running)

/-- What turns and the passing of time keep, a run keeps. -/
theorem run_keeps (idles : ∀ machine cycles, kept machine → kept (machine.idle cycles))
    {machine : Machine} (start : kept machine) (budget : Nat) :
    kept (machine.run budget).value := by
  obtain ⟨count, spare, -, ran, -⟩ := exists_turns_of_run machine budget
  rw [ran]
  exact idles _ _ (afterTurns_keeps kept turns start count)

end Keeps

end Rv32.Machine
