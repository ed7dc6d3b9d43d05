import Rv32.Proofs.DataAccess

/-!
# Runs that flush the caches before every access

How a machine runs depends on the way in which it executes the next instruction. `Machine.runBy`
takes that as a parameter, as `Machine.cycleBy` does for a turn: with `Machine.executeNext` it is
the run that there is (`Machine.runBy_eq`), and with `Machine.executeNextFlushing` it is the run of
a machine that flushes its caches before every fetch and before every access to data.

A `Request` is what a host asks of a machine, and `Machine.history` lists the machines that a
sequence of requests leads through.
-/

namespace Rv32

namespace Machine

/-- Empty the caches. -/
def dropTlb : Effect Unit := modifyHart fun hart => { hart with tlb := .empty }

/-- Execute the next instruction with empty caches. They are emptied again once it is fetched,
because an instruction accesses data once at most and does so first of all. -/
def executeNextFlushing : Attempt Unit := do
  dropTlb
  let raw ← fetch
  dropTlb
  executeFetched raw

theorem executeNextFlushing_outcome (machine : Machine) :
    executeNextFlushing.outcome machine =
      match fetch.outcome (machine.withTlb .empty) with
      | (.ok raw, after) => (executeFetched raw).outcome (after.withTlb .empty)
      | (.error raised, after) => (.error raised, after) := by
  unfold executeNextFlushing
  have dropped : (dropTlb.outcome machine).2 = machine.withTlb .empty := rfl
  rw [Attempt.outcome_lift_bind, Attempt.outcome_bind, dropped]
  rcases fetch.outcome (machine.withTlb .empty) with ⟨raised | raw, after⟩ <;> rfl

/-- Run for a budget of cycles, where instructions are executed in a way that is given. -/
def runBy (next : Attempt Unit) : (budget : Nat) → Machine → Machine
  | 0, machine => machine
  | 1, machine =>
    if machine.hart.halted then machine.idle 1 else ((cycleBy next).outcome machine).2
  | budget + 2, machine =>
    if machine.hart.halted then machine.idle (budget + 2)
    else
      match (cycleBy next).outcome machine with
      | (.one, after) => runBy next (budget + 1) after
      | (.two, after) => runBy next budget after

end Machine

/-- What is left of a budget behind its first cycle after a turn. -/
def Cost.left (cost : Cost) (budget : Nat) : Nat :=
  match cost with
  | .one => budget
  | .two => budget - 1

theorem Cost.left_le (cost : Cost) (budget : Nat) : cost.left budget ≤ budget := by
  cases cost with
  | one => exact Nat.le_refl budget
  | two => exact Nat.sub_le budget 1

namespace Machine

variable {next : Attempt Unit} {machine : Machine}

theorem runBy_halted (halted : machine.hart.halted = true) (budget : Nat) :
    runBy next (budget + 1) machine = machine.idle (budget + 1) := by
  cases budget with
  | zero => exact if_pos halted
  | succ budget => exact if_pos halted

theorem runBy_turn (running : machine.hart.halted = false) (budget : Nat) :
    runBy next (budget + 1) machine =
      runBy next (((cycleBy next).outcome machine).1.left budget)
        ((cycleBy next).outcome machine).2 := by
  have goesOn : ¬ machine.hart.halted = true := Bool.eq_false_iff.1 running
  cases budget with
  | zero =>
      refine (if_neg goesOn).trans ?_
      rcases (cycleBy next).outcome machine with ⟨_ | _, after⟩ <;> rfl
  | succ budget =>
      refine (if_neg goesOn).trans ?_
      rcases (cycleBy next).outcome machine with ⟨_ | _, after⟩ <;> rfl

theorem value_runFrom (log : Array Diagnostic) (budget : Nat) (machine : Machine) :
    (runFrom log budget machine).value = runBy executeNext budget machine := by
  fun_induction runFrom log budget machine with
  | case1 log machine => rfl
  | case2 log machine halted => exact (if_pos halted).symm
  | case3 log machine running turn => exact (if_neg running).symm
  | case4 log budget machine halted => exact (if_pos halted).symm
  | case5 log budget machine running turn cost ih =>
      have isCost : ((cycleBy executeNext).outcome machine).1 = .one := cost
      rw [runBy_turn (Bool.eq_false_iff.2 running), isCost]
      exact ih
  | case6 log budget machine running turn cost ih =>
      have isCost : ((cycleBy executeNext).outcome machine).1 = .two := cost
      rw [runBy_turn (Bool.eq_false_iff.2 running), isCost]
      exact ih

/-- With the instructions that there are, this is the run that there is. -/
theorem runBy_eq (machine : Machine) (budget : Nat) :
    runBy executeNext budget machine = (machine.run budget).value :=
  (value_runFrom ..).symm

end Machine

/-! ## Requests -/

/-- What a host can do to a machine between turns. -/
inductive HostAction where
  | raiseInterrupts (mask : Word)
  | lowerInterrupts (mask : Word)
  | writeCsr (address : CsrAddress) (value : Word)
  | reset
  | resetHard
  | restore (snapshot : Snapshot)
  | attach (range : AddressRange) (device : Device)

/-- The machine after an action of the host. What is refused changes nothing. -/
def HostAction.apply (action : HostAction) (machine : Machine) : Machine :=
  match action with
  | .raiseInterrupts mask => { machine with hart := machine.hart.raiseInterrupts mask }
  | .lowerInterrupts mask => { machine with hart := machine.hart.lowerInterrupts mask }
  | .writeCsr address value => (Operation.writeCsr address value).apply machine
  | .reset => Operation.reset.apply machine
  | .resetHard => Operation.resetHard.apply machine
  | .restore snapshot => (Operation.restore snapshot).apply machine
  | .attach range device =>
    match machine.bus.attach range device with
    | .ok (_, bus) => { machine with bus := bus }
    | .error _ => machine

/-- What a host asks of a machine: to run for a number of cycles, or an action of its own. -/
inductive Request where
  | step (cycles : Nat)
  | act (action : HostAction)

/-- The machine after a request, if `run` is how it runs. -/
def Request.serve (run : Nat → Machine → Machine) (request : Request) (machine : Machine) :
    Machine :=
  match request with
  | .step cycles => run cycles machine
  | .act action => action.apply machine

/-- The machines after each of a sequence of requests. -/
def Machine.history (run : Nat → Machine → Machine) : List Request → Machine → List Machine
  | [], _ => []
  | request :: rest, machine =>
    request.serve run machine :: history run rest (request.serve run machine)

namespace Machine

/-- A turn takes its cost from the budget of the request that is being served. -/
theorem history_turn {next : Attempt Unit} {machine : Machine}
    (running : machine.hart.halted = false) (budget : Nat) (rest : List Request) :
    history (runBy next) (.step (budget + 1) :: rest) machine =
      history (runBy next) (.step (((cycleBy next).outcome machine).1.left budget) :: rest)
        ((cycleBy next).outcome machine).2 := by
  have served : (Request.step (budget + 1)).serve (runBy next) machine =
      (Request.step (((cycleBy next).outcome machine).1.left budget)).serve (runBy next)
        ((cycleBy next).outcome machine).2 := runBy_turn running budget
  exact congrArg (fun after => after :: history (runBy next) rest after) served

theorem history_halted {next : Attempt Unit} {machine : Machine}
    (halted : machine.hart.halted = true) (budget : Nat) (rest : List Request) :
    history (runBy next) (.step (budget + 1) :: rest) machine =
      machine.idle (budget + 1) :: history (runBy next) rest (machine.idle (budget + 1)) := by
  have served :
      (Request.step (budget + 1)).serve (runBy next) machine = machine.idle (budget + 1) :=
    runBy_halted halted budget
  exact congrArg (fun after => after :: history (runBy next) rest after) served

end Machine

end Rv32
