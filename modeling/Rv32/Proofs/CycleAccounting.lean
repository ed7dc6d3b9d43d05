import Rv32.Proofs.CycleBudget
import Rv32.Proofs.DrivenInterrupts
import Rv32.Proofs.PreciseExceptions

/-!
# What the cycle counter counts

The cycle counter of a hart advances in four places: before an instruction is executed, at the entry
of a trap, and while the hart waits, and it can be written. Without writes it counts in each turn
what the turn costs (`Machine.mcycle_turn`), so over a run it counts the budget, or one cycle more
if the run exceeds it. `Machine.accounted_succ_iff` says when that happens: the last turn executes
an instruction that raises an exception, with one cycle left. `Machine.cycles_exact` puts these
together.
-/

namespace Rv32

/-- The registers that are names of a half of the cycle counter and can be written. -/
def Csr.setsCycles : Csr → Bool
  | .mcycle | .mcycleh | .minstret | .minstreth => true
  | _ => false

/-- The cycle counter after a write to a register. -/
def cyclesAfterWrite (cycles : DoubleWord) : Option (Csr × Word) → DoubleWord
  | some (.mcycle, value) | some (.minstret, value) =>
    (cycles.extractLsb' 32 32 : Word) ++ value
  | some (.mcycleh, value) | some (.minstreth, value) =>
    value ++ (cycles.setWidth 32 : Word)
  | _ => cycles

theorem cyclesAfterWrite_other {register : Csr} (other : register.setsCycles = false)
    (cycles : DoubleWord) (value : Word) :
    cyclesAfterWrite cycles (some (register, value)) = cycles := by
  cases register with
  | mcycle | mcycleh | minstret | minstreth => cases other
  | _ => rfl

namespace Hart

theorem mcycle_changedByWrites : ChangedByWrites mcycle cyclesAfterWrite where
  frame _ _ _ _ _ _ _ := rfl
  unwritten _ := rfl
  write hart register value := by
    cases register with
    | sstatus | mstatus =>
        obtain ⟨tlb, after⟩ := hart.value_writeStatus value _
        have kept := congrArg mcycle after
        exact kept
    | satp =>
        obtain ⟨tlb, after⟩ := hart.value_writeSatp value
        have kept := congrArg mcycle after
        exact kept
    | _ => rfl

theorem mcycle_enterTrap (hart : Hart) (cause : Cause) :
    (hart.enterTrap cause).value.mcycle = hart.mcycle + 1 := by
  rcases handled : hart.delegates cause with _ | _
  · rw [value_enterTrap_machine handled]
  · rw [value_enterTrap_supervisor handled]

end Hart

namespace Machine

/-- Whether the next turn writes the cycle counter. -/
def writesCycles (machine : Machine) : Bool :=
  match machine.written with
  | some (register, _) => register.setsCycles
  | none => false

/-- The next turn executes an instruction that raises an exception. -/
structure Raises (machine : Machine) : Prop where
  running : machine.hart.halted = false
  uninterrupted : machine.hart.nextInterrupt = none
  raised : ∃ raised, (executeNext.outcome machine.counted).1 = .error raised

/-- With one cycle of the budget left, a run executes an instruction that raises an exception. It is
the last turn of the run. -/
def Exceeds (budget : Nat) (machine : Machine) : Prop :=
  ∃ turns, machine.turnsWithin budget = turns + 1 ∧ spent turns machine + 1 = budget ∧
    (afterTurns turns machine).Raises

variable {machine : Machine}

/-! ## One turn -/

theorem cyclesAfterWrite_nextWritten (running : machine.hart.halted = false)
    (uninterrupted : machine.hart.nextInterrupt = none) (plain : machine.writesCycles = false)
    (cycles : DoubleWord) : cyclesAfterWrite cycles machine.counted.nextWritten = cycles := by
  have isNext : machine.written = machine.counted.nextWritten := by
    unfold written
    rw [running, uninterrupted]
    rfl
  unfold writesCycles at plain
  rw [isNext] at plain
  rcases writes : machine.counted.nextWritten with _ | ⟨register, value⟩
  · rfl
  · rw [writes] at plain
    exact cyclesAfterWrite_other plain cycles value

/-- A turn that does not write the cycle counter advances it by what the turn costs. -/
theorem mcycle_turn (plain : machine.writesCycles = false) :
    machine.turn.hart.mcycle = machine.hart.mcycle + BitVec.ofNat 64 machine.turnCycles := by
  cases running : machine.hart.halted with
  | true =>
      unfold turn turnCycles
      rw [running]
      exact (BitVec.add_zero _).symm
  | false =>
      rw [turn_running running, turnCycles_running running, ← cycleBy_executeNext, cycleBy_outcome]
      cases uninterrupted : machine.hart.nextInterrupt with
      | some interrupt => exact machine.hart.mcycle_enterTrap _
      | none =>
          have executed := part_executeNext Hart.mcycle_changedByWrites machine.counted
          rw [cyclesAfterWrite_nextWritten running uninterrupted plain] at executed
          dsimp only
          rcases ran : executeNext.outcome machine.counted with ⟨raised | done, after⟩
          · rw [ran] at executed
            refine (after.hart.mcycle_enterTrap _).trans ?_
            have counted : after.hart.mcycle = machine.hart.mcycle + 1 := executed
            rw [counted, BitVec.add_assoc]
            rfl
          · rw [ran] at executed
            exact executed

/-- A turn costs two cycles exactly if an instruction raises an exception in it. -/
theorem turnCycles_eq_two_iff : machine.turnCycles = 2 ↔ machine.Raises := by
  cases running : machine.hart.halted with
  | true =>
      have none : machine.turnCycles = 0 := if_pos running
      rw [none]
      exact ⟨nofun, fun raises => Bool.noConfusion (running.symm.trans raises.running)⟩
  | false =>
      rw [turnCycles_running running]
      constructor
      · intro two
        have turns := cycle_turns machine
        rcases ended : cycle.outcome machine with ⟨cost, after⟩
        rw [ended] at turns two
        cases turns with
        | interrupted pending => cases two
        | completed uninterrupted ran => cases two
        | failed uninterrupted ran =>
            exact ⟨running, uninterrupted, _, congrArg Prod.fst ran⟩
      · rintro ⟨-, uninterrupted, raised, failed⟩
        rw [← cycleBy_executeNext, cycleBy_outcome, uninterrupted]
        dsimp only
        rcases ran : executeNext.outcome machine.counted with ⟨result, after⟩
        rw [ran] at failed
        cases failed
        rfl

/-! ## Turn by turn -/

/-- Turns that do not write the cycle counter advance it by what they cost. -/
theorem mcycle_afterTurns {turns : Nat}
    (plain : ∀ earlier < turns, (afterTurns earlier machine).writesCycles = false) :
    (afterTurns turns machine).hart.mcycle =
      machine.hart.mcycle + BitVec.ofNat 64 (spent turns machine) := by
  induction turns with
  | zero => exact (BitVec.add_zero _).symm
  | succ turns ih =>
      have before := ih fun earlier less => plain earlier (Nat.lt_succ_of_lt less)
      rw [afterTurns_succ, mcycle_turn (plain turns (Nat.lt_succ_self turns)), before, spent_succ,
        BitVec.ofNat_add, BitVec.add_assoc]

/-! ## Whole runs -/

/-- A run exceeds its budget exactly if an instruction raises an exception with one cycle left. -/
theorem accounted_succ_iff {budget : Nat} :
    machine.accounted budget = budget + 1 ↔ machine.Exceeds budget := by
  unfold accounted executed
  constructor
  · intro more
    cases made : machine.turnsWithin budget with
    | zero =>
        rw [made, spent] at more
        omega
    | succ turns =>
        have early := spent_lt_of_turnsWithin made
        rw [made, spent_succ] at more
        have cost := (afterTurns turns machine).turnCycles_le
        exact ⟨turns, made, by omega, turnCycles_eq_two_iff.1 (by omega)⟩
  · rintro ⟨turns, made, left, raises⟩
    rw [made, spent_succ, turnCycles_eq_two_iff.2 raises]
    omega

/-- The cycle counter advances by the cycles that a run accounts for. -/
theorem mcycle_run {budget : Nat}
    (plain : ∀ turns < machine.turnsWithin budget,
      (afterTurns turns machine).writesCycles = false) :
    (machine.run budget).value.hart.mcycle =
      machine.hart.mcycle + BitVec.ofNat 64 (machine.accounted budget) := by
  have passed : machine.executed budget + (budget - machine.executed budget) =
      machine.accounted budget := by
    unfold accounted
    omega
  have turns := mcycle_afterTurns plain
  rw [run_eq_afterTurns, ← passed, BitVec.ofNat_add, ← BitVec.add_assoc]
  exact congrArg (· + BitVec.ofNat 64 (budget - machine.executed budget)) turns

/-- If no instruction of a run writes the cycle counter, the run advances it by the budget, and by
one cycle more exactly if the last instruction raises an exception when one cycle is left. Without a
budget nothing changes at all. -/
theorem cycles_exact (machine : Machine) (budget : Nat)
    (plain : ∀ turns < machine.turnsWithin budget,
      (afterTurns turns machine).writesCycles = false) :
    ((machine.run budget).value.hart.mcycle = machine.hart.mcycle + BitVec.ofNat 64 budget ∧
        ¬ machine.Exceeds budget ∨
      (machine.run budget).value.hart.mcycle =
          machine.hart.mcycle + BitVec.ofNat 64 (budget + 1) ∧
        machine.Exceeds budget) ∧
      machine.run 0 = pure machine := by
  refine ⟨?_, rfl⟩
  rw [mcycle_run plain, ← accounted_succ_iff]
  rcases machine.accounted_eq budget with exact' | more
  · rw [exact']
    exact .inl ⟨rfl, Nat.ne_of_lt (Nat.lt_succ_self budget)⟩
  · rw [more]
    exact .inr ⟨rfl, rfl⟩

/-- With a budget of one cycle, the breakpoint makes the counter advance by two. -/
theorem breakpointMachine_cycles :
    breakpointMachine.turnsWithin 1 = 1 ∧ breakpointMachine.writesCycles = false ∧
      (breakpointMachine.run 1).value.hart.mcycle = 2 ∧ breakpointMachine.Exceeds 1 := by
  have plain : ∀ turns < breakpointMachine.turnsWithin 1,
      (afterTurns turns breakpointMachine).writesCycles = false := by
    intro turns first
    obtain rfl : turns = 0 := Nat.lt_one_iff.1 first
    rfl
  have counted : (breakpointMachine.run 1).value.hart.mcycle = 2 := rfl
  refine ⟨rfl, rfl, counted, ?_⟩
  rcases (cycles_exact breakpointMachine 1 plain).1 with ⟨one, -⟩ | ⟨-, exceeds⟩
  · rw [counted] at one
    cases one
  · exact exceeds

end Machine

end Rv32
