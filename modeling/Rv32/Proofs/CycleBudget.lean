import Rv32.Proofs.Turns

/-!
# Budgets of cycles

A run makes turns until they have cost its budget of cycles (`Machine.turnsWithin`), and once the
hart waits it lets what is left of the budget pass (`Machine.run_eq_afterTurns`). The last turn may
exceed the budget by a cycle, so the cycles that a run accounts for are the budget or one more
(`Machine.accounted_eq`).

A host that runs the machine in slices gets the run that it would have got in one piece, as long as
it goes by the cycles accounted for: `Machine.run_split`.
-/

namespace Rv32

/-- The number of cycles that a turn costs. -/
def Cost.cycles : Cost → Nat
  | .one => 1
  | .two => 2

/-- A budget that covers a turn has as much left as it has beyond the cost of the turn. -/
theorem Cost.left_cycles (cost : Cost) (rest : Nat) :
    cost.left (cost.cycles + rest - 1) = rest := by
  cases cost with
  | one => exact Nat.add_sub_cancel_left 1 rest
  | two => exact (Nat.sub_sub (2 + rest) 1 1).trans (Nat.add_sub_cancel_left 2 rest)

/-- A turn uses up its cost and leaves the rest. It may cost a cycle more than there is. -/
theorem Cost.cycles_add_left (cost : Cost) (budget : Nat) :
    cost.cycles + cost.left budget = max (budget + 1) cost.cycles := by
  cases cost with
  | one =>
      dsimp only [cycles, left]
      omega
  | two =>
      dsimp only [cycles, left]
      omega

theorem Cost.cycles_pos (cost : Cost) : 0 < cost.cycles := by
  cases cost <;> decide

theorem Cost.cycles_le (cost : Cost) : cost.cycles ≤ 2 := by
  cases cost <;> decide

namespace Machine

/-- The cycles that the next turn costs. A hart that waits makes no turn. -/
def turnCycles (machine : Machine) : Nat :=
  if machine.hart.halted then 0 else (cycle.outcome machine).1.cycles

/-- The cycles that a number of turns cost. -/
def spent : (turns : Nat) → Machine → Nat
  | 0, _ => 0
  | turns + 1, machine => machine.turnCycles + spent turns machine.turn

/-- The number of turns that a run with a budget of cycles makes. -/
def turnsWithin : (budget : Nat) → Machine → Nat
  | 0, _ => 0
  | 1, machine => if machine.hart.halted then 0 else 1
  | budget + 2, machine =>
    if machine.hart.halted then 0
    else
      match (cycle.outcome machine).1 with
      | .one => turnsWithin (budget + 1) machine.turn + 1
      | .two => turnsWithin budget machine.turn + 1

/-- A run with a budget of cycles stops after so many turns: each of them begins with some of the
budget left and a hart that goes on, and then the budget is used up or the hart waits. -/
structure StopsAfter (turns budget : Nat) (machine : Machine) : Prop where
  begins : ∀ earlier < turns, spent earlier machine < budget ∧
    (afterTurns earlier machine).hart.halted = false
  ends : budget ≤ spent turns machine ∨ (afterTurns turns machine).hart.halted = true

/-- The cycles that the turns of a run cost. -/
def executed (budget : Nat) (machine : Machine) : Nat :=
  spent (machine.turnsWithin budget) machine

/-- The cycles that a run accounts for: those that its turns cost, or all of its budget if the hart
waits before they cost as much. -/
def accounted (budget : Nat) (machine : Machine) : Nat := max budget (machine.executed budget)

variable {machine : Machine}

/-! ## Turns within a budget -/

theorem turnCycles_running (running : machine.hart.halted = false) :
    machine.turnCycles = (cycle.outcome machine).1.cycles :=
  if_neg (Bool.eq_false_iff.1 running)

theorem turnCycles_le (machine : Machine) : machine.turnCycles ≤ 2 := by
  unfold turnCycles
  split
  · exact Nat.zero_le 2
  · exact Cost.cycles_le _

theorem spent_succ (turns : Nat) (machine : Machine) :
    spent (turns + 1) machine = spent turns machine + (afterTurns turns machine).turnCycles := by
  induction turns generalizing machine with
  | zero => exact Nat.add_comm ..
  | succ turns ih =>
      rw [spent, ih machine.turn, ← Nat.add_assoc]
      rfl

theorem turnsWithin_halted (halted : machine.hart.halted = true) (budget : Nat) :
    machine.turnsWithin budget = 0 := by
  match budget with
  | 0 => rfl
  | 1 => exact if_pos halted
  | budget + 2 => exact if_pos halted

theorem turnsWithin_turn (running : machine.hart.halted = false) (budget : Nat) :
    machine.turnsWithin (budget + 1) =
      machine.turn.turnsWithin ((cycle.outcome machine).1.left budget) + 1 := by
  have goesOn : ¬ machine.hart.halted = true := Bool.eq_false_iff.1 running
  cases budget with
  | zero =>
      refine (if_neg goesOn).trans ?_
      cases (cycle.outcome machine).1 <;> rfl
  | succ budget =>
      refine (if_neg goesOn).trans ?_
      cases (cycle.outcome machine).1 <;> rfl

/-- The turns that are counted are those after which a run stops. -/
theorem stopsAfter_turnsWithin (machine : Machine) (budget : Nat) :
    machine.StopsAfter (machine.turnsWithin budget) budget := by
  induction budget using Nat.strongRecOn generalizing machine with
  | ind budget ih =>
      cases budget with
      | zero => exact ⟨fun _ less => absurd less (Nat.not_lt_zero _), .inl (Nat.zero_le _)⟩
      | succ budget =>
          cases waits : machine.hart.halted with
          | true =>
              rw [turnsWithin_halted waits]
              exact ⟨fun _ less => absurd less (Nat.not_lt_zero _), .inr waits⟩
          | false =>
              have less := Cost.left_le (cycle.outcome machine).1 budget
              have used := (cycle.outcome machine).1.cycles_add_left budget
              have few := (cycle.outcome machine).1.cycles_le
              obtain ⟨begins, ends⟩ := ih _ (Nat.lt_succ_of_le less) machine.turn
              rw [turnsWithin_turn waits]
              refine ⟨fun earlier made => ?_, ends.imp_left fun last => ?_⟩
              · cases earlier with
                | zero => exact ⟨Nat.succ_pos budget, waits⟩
                | succ earlier =>
                    obtain ⟨within, goesOn⟩ := begins earlier (Nat.lt_of_succ_lt_succ made)
                    refine ⟨?_, goesOn⟩
                    rw [spent, turnCycles_running waits]
                    omega
              · rw [spent, turnCycles_running waits]
                omega

/-- The last turn of a run begins with some of the budget left. -/
theorem spent_lt_of_turnsWithin {turns budget : Nat}
    (made : machine.turnsWithin budget = turns + 1) : spent turns machine < budget := by
  have last : turns < machine.turnsWithin budget := made ▸ Nat.lt_succ_self turns
  exact ((machine.stopsAfter_turnsWithin budget).begins turns last).1

theorem executed_halted (halted : machine.hart.halted = true) (budget : Nat) :
    machine.executed budget = 0 := by
  unfold executed
  rw [turnsWithin_halted halted]
  rfl

theorem executed_turn (running : machine.hart.halted = false) (budget : Nat) :
    machine.executed (budget + 1) =
      (cycle.outcome machine).1.cycles +
        machine.turn.executed ((cycle.outcome machine).1.left budget) := by
  unfold executed
  rw [turnsWithin_turn running, spent, turnCycles_running running]

theorem accounted_halted (halted : machine.hart.halted = true) (budget : Nat) :
    machine.accounted budget = budget := by
  unfold accounted
  rw [executed_halted halted, Nat.max_zero]

/-- The cost of a turn is accounted for in full, also where it exceeds the budget. -/
theorem accounted_turn (running : machine.hart.halted = false) (budget : Nat) :
    machine.accounted (budget + 1) =
      (cycle.outcome machine).1.cycles +
        machine.turn.accounted ((cycle.outcome machine).1.left budget) := by
  have used := (cycle.outcome machine).1.cycles_add_left budget
  unfold accounted
  rw [executed_turn running]
  omega

/-- The budget is exceeded by one cycle at most, because the last turn begins with some of it left
and costs two cycles at most. -/
theorem accounted_eq (machine : Machine) (budget : Nat) :
    machine.accounted budget = budget ∨ machine.accounted budget = budget + 1 := by
  have few : machine.executed budget ≤ budget + 1 := by
    unfold executed
    cases made : machine.turnsWithin budget with
    | zero => exact Nat.zero_le _
    | succ turns =>
        have within := spent_lt_of_turnsWithin made
        have cost := (afterTurns turns machine).turnCycles_le
        rw [spent_succ]
        omega
  unfold accounted
  omega

/-! ## Runs within a budget -/

theorem idle_idle (machine : Machine) (first second : Nat) :
    (machine.idle first).idle second = machine.idle (first + second) := by
  have sum : machine.hart.mcycle + BitVec.ofNat 64 first + BitVec.ofNat 64 second =
      machine.hart.mcycle + BitVec.ofNat 64 (first + second) := by
    rw [BitVec.add_assoc, BitVec.ofNat_add]
  unfold idle
  rw [sum]

theorem runFrom_halted (halted : machine.hart.halted = true) (log : Array Diagnostic)
    (budget : Nat) : runFrom log (budget + 1) machine = ⟨machine.idle (budget + 1), log⟩ := by
  cases budget with
  | zero => exact if_pos halted
  | succ budget => exact if_pos halted

theorem runFrom_turn (running : machine.hart.halted = false) (log : Array Diagnostic)
    (budget : Nat) :
    runFrom log (budget + 1) machine =
      runFrom (log ++ (cycle.run machine).log)
        ((cycle.outcome machine).1.left budget) machine.turn := by
  have goesOn : ¬ machine.hart.halted = true := Bool.eq_false_iff.1 running
  rw [turn_running running]
  unfold Effect.outcome
  cases budget with
  | zero =>
      refine (if_neg goesOn).trans ?_
      rcases cycle.run machine with ⟨⟨_ | _, after⟩, reported⟩ <;> rfl
  | succ budget =>
      refine (if_neg goesOn).trans ?_
      rcases cycle.run machine with ⟨⟨_ | _, after⟩, reported⟩ <;> rfl

/-- What was reported before a run does not matter to it. -/
theorem runFrom_eq (log : Array Diagnostic) (machine : Machine) (budget : Nat) :
    runFrom log budget machine = Logged.after log (machine.run budget) := by
  induction budget using Nat.strongRecOn generalizing log machine with
  | ind budget ih =>
      unfold run
      cases budget with
      | zero => exact congrArg (Logged.mk machine) Array.append_empty.symm
      | succ budget =>
          cases waits : machine.hart.halted with
          | true =>
              rw [runFrom_halted waits, runFrom_halted waits]
              exact congrArg (Logged.mk _) Array.append_empty.symm
          | false =>
              have less := Nat.lt_succ_of_le (Cost.left_le (cycle.outcome machine).1 budget)
              rw [runFrom_turn waits, runFrom_turn waits, ih _ less, ih _ less]
              unfold Logged.after
              rw [Array.empty_append, Array.append_assoc]

/-- A run makes a turn, and then is the run for what the turn left of the budget. -/
theorem run_turn (running : machine.hart.halted = false) (budget : Nat) :
    machine.run (budget + 1) =
      Logged.after (cycle.run machine).log
        (machine.turn.run ((cycle.outcome machine).1.left budget)) := by
  unfold run
  rw [runFrom_turn running, Array.empty_append]
  exact runFrom_eq ..

/-- A run is the turns within its budget. If they cost less, the hart waits then and the rest of the
budget passes. -/
theorem run_eq_afterTurns (machine : Machine) (budget : Nat) :
    (machine.run budget).value =
      (afterTurns (machine.turnsWithin budget) machine).idle
        (budget - machine.executed budget) := by
  induction budget using Nat.strongRecOn generalizing machine with
  | ind budget ih =>
      cases budget with
      | zero => exact (idle_zero machine).symm
      | succ budget =>
          cases waits : machine.hart.halted with
          | true =>
              rw [run_halted waits, turnsWithin_halted waits, executed_halted waits]
              rfl
          | false =>
              have less := Nat.lt_succ_of_le (Cost.left_le (cycle.outcome machine).1 budget)
              have passed : budget + 1 - machine.executed (budget + 1) =
                  (cycle.outcome machine).1.left budget -
                    machine.turn.executed ((cycle.outcome machine).1.left budget) := by
                have used := (cycle.outcome machine).1.cycles_add_left budget
                rw [executed_turn waits]
                omega
              rw [run_turn waits, turnsWithin_turn waits, passed]
              exact ih _ less machine.turn

/-- A second run goes on where the first one stopped. -/
theorem run_run (machine : Machine) (first second : Nat) :
    (machine.run first >>= fun after => after.run second) =
      machine.run (machine.accounted first + second) := by
  induction first using Nat.strongRecOn generalizing machine with
  | ind first ih =>
      cases first with
      | zero =>
          have empty : machine.accounted 0 = 0 := rfl
          rw [empty, Nat.zero_add]
          exact pure_bind machine fun after : Machine => after.run second
      | succ budget =>
          cases waits : machine.hart.halted with
          | true =>
              have still : (machine.idle (budget + 1)).hart.halted = true := waits
              rw [run_halted waits, accounted_halted waits, run_halted waits, pure_bind,
                run_halted still, idle_idle]
          | false =>
              have less := Nat.lt_succ_of_le (Cost.left_le (cycle.outcome machine).1 budget)
              have later := ih _ less machine.turn
              have positive := (cycle.outcome machine).1.cycles_pos
              have whole := run_turn waits ((cycle.outcome machine).1.cycles +
                (machine.turn.accounted ((cycle.outcome machine).1.left budget) + second) - 1)
              rw [Cost.left_cycles, Nat.sub_add_cancel (Nat.le_add_right_of_le positive)] at whole
              rw [accounted_turn waits, Nat.add_assoc, whole, run_turn waits, ← later]
              exact bind_assoc (Logged.mk () (cycle.run machine).log) (fun _ => machine.turn.run _)
                _

/-- To run for one budget and then for another is to run for the cycles that the first run accounts
for and the second budget in one piece. The machine that this leads to is the same, with its caches,
its devices and all that they have seen, and so are the reports.

The cycles accounted for are those that the run spends: it makes turns as long as there is some of
the budget left and the hart does not wait, and then lets pass what they have not cost. -/
theorem run_split (machine : Machine) (first second : Nat) :
    machine.StopsAfter (machine.turnsWithin first) first ∧
      (machine.run first).value =
        (afterTurns (machine.turnsWithin first) machine).idle (first - machine.executed first) ∧
      (machine.accounted first = first ∨ machine.accounted first = first + 1) ∧
      (machine.run first >>= fun after => after.run second) =
        machine.run (machine.accounted first + second) :=
  ⟨machine.stopsAfter_turnsWithin first, machine.run_eq_afterTurns first,
    machine.accounted_eq first, machine.run_run first second⟩

/-- A machine without memory, which cannot fetch and takes two cycles for each exception. -/
def vacantMachine : Machine := initial ⟨0, 0⟩ .empty

/-- Two runs for one cycle account for three, because the first one exceeds its budget. -/
theorem vacantMachine_split :
    vacantMachine.accounted 1 = 2 ∧
      (vacantMachine.run 1 >>= fun after => after.run 1) = vacantMachine.run 3 ∧
      (vacantMachine.run 1).value.hart.mcycle = 2 ∧
      (vacantMachine.run 2).value.hart.mcycle = 2 ∧
      (vacantMachine.run 3).value.hart.mcycle = 4 := by
  have exceeds : vacantMachine.accounted 1 = 2 := rfl
  obtain ⟨-, -, -, split⟩ := run_split vacantMachine 1 1
  rw [exceeds] at split
  exact ⟨exceeds, split, rfl, rfl, rfl⟩

end Machine

end Rv32
