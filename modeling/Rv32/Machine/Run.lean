import Rv32.Machine.Execute

/-!
# Running a machine

`Machine.cycle` is one turn of the machine: it takes an interrupt, or else executes an instruction
and enters a trap if that raises an exception. `Machine.run` makes turns until a budget of cycles is
used up. A hart that waits for an interrupt lets the rest of the budget pass.
-/

namespace Rv32

/-- The cycles that a turn takes: two if an instruction raised an exception, else one. -/
inductive Cost where
  | one
  | two
deriving DecidableEq, Repr

namespace Machine

/-- A machine with a hart in its initial state. -/
def initial (config : HartConfig) (bus : Bus) : Machine := ⟨.initial config, bus⟩

/-- The instruction that was fetched, with its length. -/
def decodeFetched (raw : Word) : Except DecodeError (Instruction × Word) :=
  if Instruction.isCompressed (raw.setWidth 16) then
    (Instruction.expand (raw.setWidth 16)).map fun instruction => (instruction, 2)
  else (Instruction.decode raw).map fun instruction => (instruction, 4)

/-- Decode and execute what was fetched. -/
def executeFetched (raw : Word) : Attempt Unit :=
  match decodeFetched raw with
  | .ok (instruction, length) => execute instruction raw length
  | .error _ => throw (.illegalInstruction raw)

/-- Fetch, decode and execute the instruction at the program counter. -/
def executeNext : Attempt Unit := do
  executeFetched (← fetch)

/-- Execute an instruction, entering a trap if that fails. -/
def tick : Effect Cost := do
  modifyHart fun hart => { hart with mcycle := hart.mcycle + 1 }
  match ← executeNext.run with
  | .ok () => pure .one
  | .error raised =>
    updateHart fun hart => hart.enterTrap (.exception raised)
    pure .two

/-- One turn of the machine. -/
def cycle : Effect Cost := do
  match (← getHart).nextInterrupt with
  | some interrupt =>
    updateHart fun hart => hart.enterTrap (.interrupt interrupt)
    pure .one
  | none => tick

/-- Let cycles pass in which nothing happens. -/
def idle (machine : Machine) (cycles : Nat) : Machine :=
  { machine with
    hart := { machine.hart with mcycle := machine.hart.mcycle + BitVec.ofNat 64 cycles } }

/-- Make turns for a budget of cycles, adding to the diagnostics reported before. The last turn may
exceed the budget by one cycle. -/
def runFrom (log : Array Diagnostic) : (budget : Nat) → Machine → Logged Machine
  | 0, machine => ⟨machine, log⟩
  | 1, machine =>
    if machine.hart.halted then ⟨machine.idle 1, log⟩
    else
      let turn := cycle.run machine
      ⟨turn.value.2, log ++ turn.log⟩
  | budget + 2, machine =>
    if machine.hart.halted then ⟨machine.idle (budget + 2), log⟩
    else
      let turn := cycle.run machine
      match turn.value.1 with
      | .one => runFrom (log ++ turn.log) (budget + 1) turn.value.2
      | .two => runFrom (log ++ turn.log) budget turn.value.2

/-- Run for a budget of cycles. -/
def run (machine : Machine) (budget : Nat) : Logged Machine := runFrom #[] budget machine

end Machine

end Rv32
