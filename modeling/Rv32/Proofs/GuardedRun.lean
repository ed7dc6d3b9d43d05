import Rv32.Proofs.CycleBudget
import Rv32.Proofs.GuardedDecoding
import Rv32.Proofs.GuardedMemory
import Rv32.Proofs.Sessions

/-!
# Runs that ask first

`Checked.run` runs a machine for a budget of cycles and asks before everything that is not defined
everywhere: in the decoders, in the arithmetic of instructions, in the status and interrupt
registers, along the page tables, in the caches, on the bus, in the devices, and where the cycles
of the turns are added up.

Nothing that a host does before makes it find a breach, whatever is in the memory and whatever
devices were attached or refused (`Checked.run_session`). Because it gives what `Machine.run` gives,
no operation of a run is ever used outside its domain.
-/

namespace Rv32.Checked

/-! ## Execution -/

/-- Write a register and go on. -/
def finish (rd : Reg) (value length : Word) : Effect Unit :=
  changeHart fun hart => return (← setX hart rd value).advance length

/-- Go to a target and leave in a register where the program would have gone on. -/
def link (rd : Reg) (target length : Word) : Effect Unit :=
  changeHart fun hart => return (← setX hart rd (hart.pc + length)).withPc target

/-- Read a control and status register into `rd` if `reads` is set, and write what `change` makes of
the old value if `writes` is set. -/
def accessCsr (rd : Reg) (address : CsrAddress) (reads writes : Bool) (change : Word → Word)
    (raw length : Word) : Attempt Unit := do
  let hart ← Machine.getHart
  let allowed ← (checkCsr hart address writes).run
  match allowed, Csr.ofAddress? address with
  | .ok (), some register =>
    let old := if reads then hart.readCsr register else 0
    if writes then changeHart fun hart => writeCsr hart register (change old)
    finish rd old length
  | _, _ => throw (.illegalInstruction raw)

/-- Carry out an instruction. -/
def execute (instruction : Instruction) (raw length : Word) : Attempt Unit := do
  let hart ← Machine.getHart
  match instruction with
  | .opImm op rd rs1 imm => finish rd (op.eval (← x hart rs1) (imm.signExtend 32)) length
  | .shiftImm op rd rs1 shamt =>
    finish rd (← shiftBy op (← x hart rs1) (shamt.setWidth 32)) length
  | .auipc rd imm => finish rd (hart.pc + Instruction.upper imm) length
  | .lui rd imm => finish rd (Instruction.upper imm) length
  | .opReg op rd rs1 rs2 => finish rd (← evalReg op (← x hart rs1) (← x hart rs2)) length
  | .jal rd offset => link rd (hart.pc + Instruction.distance offset) length
  | .jalr rd rs1 offset => link rd (((← x hart rs1) + offset.signExtend 32) &&& ~~~1) length
  | .branch condition rs1 rs2 offset =>
    let distance :=
      if condition.holds (← x hart rs1) (← x hart rs2) then Instruction.distance offset else length
    Machine.modifyHart fun hart => hart.advance distance
  | .load op rd rs1 offset =>
    let value ← load ((← x hart rs1) + offset.signExtend 32) op.width
    finish rd (op.extend value) length
  | .store width rs2 rs1 offset =>
    store ((← x hart rs1) + offset.signExtend 32) (← x hart rs2) width
    Machine.modifyHart fun hart => hart.advance length
  | .csr op rd number rs1 =>
    let operand ← x hart rs1
    let reads := op != .readWrite || rd != Reg.zero
    let writes := op = .readWrite || rs1 != Reg.zero
    accessCsr rd (number.setWidth 16) reads writes (fun old => op.eval old operand) raw length
  | .csrImm op rd number imm =>
    let reads := op != .readWrite || rd != Reg.zero
    let writes := op = .readWrite || imm != 0
    accessCsr rd (number.setWidth 16) reads writes (fun old => op.eval old (imm.setWidth 32)) raw
      length
  | .loadReserved rd rs1 =>
    let value ← loadReserved (← x hart rs1)
    finish rd value length
  | .storeConditional rd rs1 rs2 =>
    let stored ← storeConditional (← x hart rs1) (← x hart rs2)
    finish rd (boolWord !stored) length
  | .amo op rd rs1 rs2 =>
    let operand ← x hart rs2
    let old ← atomicUpdate (← x hart rs1) fun old => op.eval old operand
    finish rd old length
  | .fence _ _ => Machine.modifyHart fun hart => hart.advance length
  | .fenceI => Machine.modifyHart fun hart => hart.advance length
  | .ecall => throw (Exception.environmentCall hart.privilege)
  | .ebreak => throw .breakpoint
  | .sret =>
    Machine.require (hart.allowsSupervisor hart.status.tsr) raw
    Machine.updateHart fun hart => hart.returnFromSupervisor
  | .mret =>
    Machine.require (hart.privilege = .machine) raw
    changeHart returnFromMachine
  | .wfi =>
    Machine.require (hart.allowsSupervisor hart.status.tw) raw
    Machine.waitForInterrupt length
  | .sfenceVma _ _ =>
    Machine.require (hart.allowsSupervisor hart.status.tvm) raw
    Machine.updateHart fun hart => hart.flush
    Machine.modifyHart fun hart => hart.advance length

/-- The instruction that was fetched, with its length. -/
def decodeFetched (raw : Word) : Decoding (Instruction × Word) := do
  if Instruction.isCompressed (raw.setWidth 16) then return (← expand (raw.setWidth 16), 2)
  else return (← decode raw, 4)

/-- Fetch, decode and execute the instruction at the program counter. -/
def executeNext : Attempt Unit := do
  let raw ← fetch
  match ← (decodeFetched raw).run with
  | .ok (instruction, length) => execute instruction raw length
  | .error _ => throw (.illegalInstruction raw)

/-! ## Turns -/

/-- Execute an instruction, entering a trap if that fails. -/
def tick : Effect Cost := do
  Machine.modifyHart fun hart => { hart with mcycle := hart.mcycle + 1 }
  match ← executeNext.run with
  | .ok () => return .one
  | .error raised =>
    changeHart fun hart => enterTrap hart (.exception raised)
    return .two

/-- One turn of the machine. -/
def cycle : Effect Cost := do
  let hart ← Machine.getHart
  match ← nextInterrupt hart with
  | some interrupt =>
    changeHart fun hart => enterTrap hart (.interrupt interrupt)
    return .one
  | none => tick

/-- Make turns, at most as many as `turns`, until they have cost a budget of cycles or the hart
waits. The cycles that they cost are added to those `executed` before. -/
def turns (cycles : DoubleWord) : (turns : Nat) → (executed : DoubleWord) → Effect DoubleWord
  | 0, executed => return executed
  | rest + 1, executed => do
    let hart ← Machine.getHart
    if hart.halted ∨ cycles ≤ executed then return executed
    else
      let cost ← cycle
      turns cycles rest (← add executed (BitVec.ofNat 64 cost.cycles))

/-- Let what is left of a budget of cycles pass. -/
def pass (cycles executed : DoubleWord) : Effect Unit := do
  if executed < cycles then
    let left ← sub cycles executed
    Machine.modifyHart fun hart => { hart with mcycle := hart.mcycle + left }

/-- Run for a budget of cycles. Each turn costs a cycle at least, so there are no more turns than
cycles. -/
def run (cycles : DoubleWord) (machine : Machine) : Reported Machine :=
  Prod.snd <$> (turns cycles cycles.toNat 0 >>= pass cycles).run machine

theorem finish_follows (rd : Reg) (value length : Word) :
    (finish rd value length).Follows (Machine.finish rd value length) := by
  refine changeHart_follows fun hart => ?_
  rw [setX_eq]
  rfl

theorem link_follows (rd : Reg) (target length : Word) :
    (link rd target length).Follows
      (Machine.modifyHart fun hart => (hart.setX rd (hart.pc + length)).withPc target) := by
  refine changeHart_follows fun hart => ?_
  rw [setX_eq]
  rfl

theorem accessCsr_follows (rd : Reg) (address : CsrAddress) (reads writes : Bool)
    (change : Word → Word) (raw length : Word) :
    (accessCsr rd address reads writes change raw length).Follows
      (Machine.accessCsr rd address reads writes change raw length) := by
  unfold accessCsr Machine.accessCsr
  simp only [checkCsr_eq, run_settled, attempt_ok_bind]
  refine .bind (.unasked fun _ => id) fun hart => ?_
  rcases hart.checkCsr address writes with refusal | granted
  · exact .throw _
  · rcases Csr.ofAddress? address with _ | register
    · exact .throw _
    · cases writes with
      | false => exact .lift (finish_follows _ _ _)
      | true =>
          refine .bind (.lift (updateHart_follows fun hart => writeCsr_eq hart _ _)) fun _ => ?_
          exact .lift (finish_follows _ _ _)

theorem require_follows (allowed : Bool) (raw : Word) :
    Attempt.Follows (liftM (Machine.require allowed raw)) (Machine.require allowed raw) :=
  .unaskedAttempt (.ite (.pure (fun _ => id) _) (.throw (fun _ => id) _))

theorem execute_follows (instruction : Instruction) (raw length : Word) :
    (execute instruction raw length).Follows (Machine.execute instruction raw length) := by
  have finishes : ∀ rd value, Attempt.Follows (liftM (finish rd value length))
      (liftM (Machine.finish rd value length)) := fun rd value =>
    .lift (finish_follows rd value length)
  have advances : ∀ distance,
      Attempt.Follows (liftM (Machine.modifyHart fun hart => hart.advance distance))
        (liftM (Machine.modifyHart fun hart => hart.advance distance)) :=
    fun distance => .unasked fun _ => id
  refine .bind (.unasked fun _ => id) fun hart => ?_
  simp only [x_eq, shiftBy_eq, evalReg_eq, attempt_ok_bind]
  cases instruction with
  | opImm op rd rs1 imm => exact finishes _ _
  | shiftImm op rd rs1 shamt =>
      have same : (shamt.setWidth 32).setWidth 5 = shamt :=
        (BitVec.setWidth_setWidth_of_le _ (by decide)).trans (BitVec.setWidth_eq _)
      dsimp only
      rw [same]
      exact finishes _ _
  | auipc rd imm => exact finishes _ _
  | lui rd imm => exact finishes _ _
  | opReg op rd rs1 rs2 => exact finishes _ _
  | jal rd offset => exact .lift (link_follows _ _ _)
  | jalr rd rs1 offset => exact .lift (link_follows _ _ _)
  | branch condition rs1 rs2 offset => exact advances _
  | load op rd rs1 offset => exact .bind (load_follows _ _) fun value => finishes _ _
  | store width rs2 rs1 offset => exact .bind (store_follows _ _ _) fun _ => advances _
  | fence predecessor successor => exact advances _
  | fenceI => exact advances _
  | csr op rd number rs1 => exact accessCsr_follows _ _ _ _ _ _ _
  | csrImm op rd number imm => exact accessCsr_follows _ _ _ _ _ _ _
  | loadReserved rd rs1 => exact .bind (loadReserved_follows _) fun value => finishes _ _
  | storeConditional rd rs1 rs2 =>
      exact .bind (storeConditional_follows _ _) fun stored => finishes _ _
  | amo op rd rs1 rs2 => exact .bind (atomicUpdate_follows _ _) fun old => finishes _ _
  | ecall => exact .throw _
  | ebreak => exact .throw _
  | sret => exact .bind (require_follows _ _) fun _ => .unasked fun _ => id
  | mret =>
      exact .bind (require_follows _ _) fun _ => .lift (updateHart_follows returnFromMachine_eq)
  | wfi =>
      refine .bind (require_follows _ _) fun _ => .unasked ?_
      exact Machine.waitForInterrupt_within (fun _ _ _ => id) length
  | sfenceVma rs1 rs2 =>
      exact .bind (require_follows _ _) fun _ => .bind (.unasked fun _ => id) fun _ => advances _

theorem decodeFetched_eq (raw : Word) :
    decodeFetched raw = settled (Machine.decodeFetched raw) := by
  unfold decodeFetched Machine.decodeFetched
  rw [expand_eq, decode_eq]
  split
  · cases Instruction.expand (raw.setWidth 16) <;> rfl
  · cases Instruction.decode raw <;> rfl

theorem executeNext_follows : executeNext.Follows Machine.executeNext := by
  unfold executeNext Machine.executeNext
  simp only [decodeFetched_eq, run_settled, attempt_ok_bind]
  refine .bind fetch_follows fun raw => ?_
  unfold Machine.executeFetched
  rcases Machine.decodeFetched raw with refusal | ⟨instruction, length⟩
  · exact .throw _
  · exact execute_follows instruction raw length

theorem enterTrap_follows (cause : Cause) :
    (changeHart fun hart => enterTrap hart cause).Follows
      (Machine.updateHart fun hart => hart.enterTrap cause) :=
  updateHart_follows fun hart => enterTrap_eq hart cause

theorem tick_follows : tick.Follows Machine.tick := by
  refine .bind (.unasked fun _ => id) fun _ => .bind executeNext_follows fun result => ?_
  rcases result with raised | done
  · exact .bind (enterTrap_follows _) fun _ => .pure _
  · exact .pure _

theorem cycle_follows : cycle.Follows Machine.cycle := by
  unfold cycle Machine.cycle
  simp only [nextInterrupt_eq, effect_ok_bind]
  refine .bind (.unasked fun _ => id) fun hart => ?_
  rcases hart.nextInterrupt with _ | interrupt
  · exact tick_follows
  · exact .bind (enterTrap_follows _) fun _ => .pure _

/-! ## Runs -/

/-- What is left to do for the rest of a budget of cycles, in the plain machine. -/
def remaining (cycles executed : DoubleWord) (machine : Machine) : Logged (Unit × Machine) := do
  let after ← machine.run (cycles.toNat - executed.toNat)
  return ((), after)

theorem pass_of_le {cycles executed : DoubleWord} (past : cycles ≤ executed) (machine : Machine) :
    (pass cycles executed).run machine = plain (remaining cycles executed machine) := by
  have nothing : cycles.toNat - executed.toNat = 0 := Nat.sub_eq_zero_of_le (BitVec.le_def.1 past)
  unfold pass remaining
  rw [if_neg (BitVec.not_lt.2 past), nothing]
  rfl

theorem pass_halted (cycles executed : DoubleWord) {machine : Machine}
    (halted : machine.hart.halted = true) :
    (pass cycles executed).run machine = plain (remaining cycles executed machine) := by
  by_cases under : executed < cycles
  · have rest : cycles - executed = BitVec.ofNat 64 (cycles.toNat - executed.toNat) := by bv_omega
    unfold pass remaining
    rw [if_pos under, sub_eq (BitVec.le_def.1 (BitVec.le_of_lt under)), effect_ok_bind,
      Machine.run_halted halted, rest]
    rfl
  · exact pass_of_le (BitVec.not_lt.1 under) machine

theorem getHart_bind {α : Type} (next : Hart → Effect α) (machine : Machine) :
    ((liftM Machine.getHart : Effect Hart) >>= next).run machine =
      (next machine.hart).run machine :=
  pure_bind (m := Reported) (machine.hart, machine) fun read => (next read.1).run read.2

theorem add_cost {executed : DoubleWord} {cost : Cost}
    (fits : executed.toNat + cost.cycles < 2 ^ 64) :
    ∃ sum, add executed (BitVec.ofNat 64 cost.cycles) = .ok sum ∧
      sum.toNat = executed.toNat + cost.cycles := by
  have costs := cost.cycles_le
  have counts : (BitVec.ofNat 64 cost.cycles).toNat = cost.cycles := by
    rw [BitVec.toNat_ofNat, Nat.mod_eq_of_lt (by omega)]
  have small : executed.toNat + (BitVec.ofNat 64 cost.cycles).toNat < 2 ^ 64 := counts.symm ▸ fits
  refine ⟨_, add_eq small, ?_⟩
  rw [BitVec.toNat_add_of_lt small, counts]

/-- The cost of a turn is taken from what remains. -/
theorem remaining_turn {cycles executed later : DoubleWord} {machine : Machine} {budget : Nat}
    (running : machine.hart.halted = false) (left : cycles.toNat - executed.toNat = budget + 1)
    (rest : cycles.toNat - later.toNat = (Machine.cycle.outcome machine).1.left budget) :
    remaining cycles executed machine =
      Machine.cycle.run machine >>= fun _ => remaining cycles later machine.turn := by
  unfold remaining
  rw [left, Machine.run_turn running, rest]
  exact bind_assoc (Machine.cycle.run machine) (fun _ => machine.turn.run _) _

/-- Turns and what passes after them are what remains of the run, by induction on the turns that
there can be. -/
theorem turns_pass {cycles : DoubleWord} (rest : Nat) {executed : DoubleWord} {machine : Machine}
    (sound : machine.bus.Sound) (enough : cycles.toNat ≤ executed.toNat + rest)
    (fits : executed.toNat + machine.executed (cycles.toNat - executed.toNat) < 2 ^ 64) :
    (turns cycles rest executed >>= pass cycles).run machine =
      plain (remaining cycles executed machine) := by
  induction rest generalizing executed machine with
  | zero =>
      rw [turns, pure_bind]
      exact pass_of_le (BitVec.le_def.2 enough) machine
  | succ rest ih =>
      rw [turns, bind_assoc, getHart_bind]
      by_cases ends : machine.hart.halted = true ∨ cycles ≤ executed
      · rw [if_pos ends, pure_bind]
        rcases ends with halted | past
        · exact pass_halted cycles executed halted
        · exact pass_of_le past machine
      · obtain ⟨goesOn, under⟩ := not_or.1 ends
        have running : machine.hart.halted = false := Bool.eq_false_iff.2 goesOn
        obtain ⟨same, still⟩ := cycle_follows machine sound
        obtain ⟨budget, left⟩ : ∃ budget, cycles.toNat - executed.toNat = budget + 1 := by
          have := BitVec.lt_def.1 (BitVec.not_le.1 under)
          exact ⟨cycles.toNat - executed.toNat - 1, by omega⟩
        have cost : (Machine.cycle.run machine).value.1 = (Machine.cycle.outcome machine).1 := rfl
        have used := (Machine.cycle.outcome machine).1.cycles_add_left budget
        have positive := (Machine.cycle.outcome machine).1.cycles_pos
        rw [left, Machine.executed_turn running, Machine.turn_running running,
          ← Nat.add_assoc] at fits
        -- The sum of what was executed and this cost is part of what all turns execute.
        obtain ⟨later, added, sum⟩ := add_cost (Nat.lt_of_le_of_lt (Nat.le_add_right _ _) fits)
        have kept : cycles.toNat - later.toNat = (Machine.cycle.outcome machine).1.left budget := by
          omega
        rw [if_neg ends, bind_assoc, StateT.run_bind, same, remaining_turn running left kept,
          plain_bind]
        refine plain_bind_congr ?_
        rw [bind_assoc, cost, added, effect_ok_bind, Machine.turn_running running]
        refine ih still (by omega) ?_
        rw [kept, sum]
        exact fits

/-- On a machine whose bus is sound, a run that asks first is the run that there is, as long as the
cycles of its turns can be counted in 64 bits. -/
theorem run_eq {cycles : DoubleWord} {machine : Machine} (sound : machine.bus.Sound)
    (fits : machine.executed cycles.toNat < 2 ^ 64) :
    run cycles machine = plain (machine.run cycles.toNat) := by
  have none : (0 : DoubleWord).toNat = 0 := rfl
  have whole := @turns_pass cycles cycles.toNat 0 machine sound (by omega) (by
    rw [none, Nat.sub_zero, Nat.zero_add]
    exact fits)
  unfold run
  rw [whole, ← plain_map]
  unfold remaining
  rw [none, Nat.sub_zero, map_bind]
  exact congrArg plain (bind_pure _)

/-- Where a range has a device that is not there, a run does find a breach. -/
example :
    (run 1 (.initial ⟨0, 0⟩
      ⟨⟨[(⟨0, 0xFF, by decide⟩, 7)], List.pairwise_singleton ..⟩, #[], []⟩)).run.value
        matches .error (.place 7) := by
  decide +kernel

/-! ## What a host does before -/

/-- Whatever is changed in a device, there are as many as before. -/
theorem sound_modifyDevice {bus : Bus} (sound : bus.Sound) (number : Nat)
    (change : Device → Device) : (bus.modifyDevice number change).Sound := by
  refine ⟨fun entry member => ?_, sound.distinct⟩
  have attached := sound.attached entry member
  rw [bus.device?_modifyDevice]
  split
  · rwa [Option.isSome_map]
  · exact attached

theorem sound_act {machine : Machine} (sound : machine.bus.Sound) (action : HostAction) :
    (action.apply machine).bus.Sound := by
  cases action with
  | attach range device =>
      unfold HostAction.apply
      dsimp only
      split
      · rename_i attached
        exact sound.attach attached
      · exact sound
  | _ => exact sound

theorem sound_apply {machine : Machine} (sound : machine.bus.Sound) (call : HostCall) :
    (call.apply machine).bus.Sound := by
  cases call with
  | serve request =>
      cases request with
      | step cycles =>
          exact Machine.run_keeps (fun machine => machine.bus.Sound)
            (fun machine sound _ => (cycle_follows machine sound).2) (fun _ _ sound => sound) sound
            cycles
      | act action => exact sound_act sound action
  | load address width => exact (machine.bus.sameMap_load address width).sound sound
  | store address value width => exact (machine.bus.sameMap_store address value width).sound sound
  | readRegion region offset width =>
      exact (machine.bus.sameMap_read region offset width).sound sound
  | writeRegion region offset value width =>
      exact (machine.bus.sameMap_write region offset value width).sound sound
  | markDirty region offset => exact (machine.bus.sameMap_markDirty region offset).sound sound
  | writeBytes address bytes => exact (machine.bus.sameMap_writeBytes address bytes).sound sound
  | readBytes address count => exact (machine.bus.sameMap_readBytes address count).sound sound
  | modifyDevice number change => exact sound_modifyDevice sound number change
  | _ => exact sound

/-- No program can bring a machine to use an operation outside its domain. Whatever a host does with
a machine that starts without devices, a run that asks about every operation before it is done has
no breach, and gives what the run that does not ask gives: the same machine and the same reports.
The one condition is that the cycles of its turns can be counted in 64 bits. -/
theorem run_session (config : HartConfig) (calls : List HostCall) (cycles : DoubleWord)
    (fits : (Machine.session calls (Machine.initial config .empty)).2.executed cycles.toNat
      < 2 ^ 64) :
    let machine := (Machine.session calls (Machine.initial config .empty)).2
    run cycles machine = plain (machine.run cycles.toNat) := by
  have sound : (Machine.session calls (Machine.initial config .empty)).2.bus.Sound := by
    refine @Machine.session_keeps (fun machine => machine.bus.Sound) (fun _ => True)
      (fun call machine _ sound => sound_apply sound call) calls (fun _ _ => trivial) _ ?_
    exact Bus.Sound.empty
  exact run_eq sound fits

/-- A memory is attached, a second one refused, and the mailboxes are attached behind the first. The
program shifts `-1` as far as it goes, divides that by zero, and writes to half of a mailbox. -/
def edgeCalls : List HostCall :=
  [.serve (.act (.attach ⟨0, 0xFF, by decide⟩ (.ram (.zeros 256)))),
    .serve (.act (.attach ⟨0x80, 0x17F, by decide⟩ (.ram (.zeros 256)))),
    .serve (.act (.attach ⟨0x100, 0x147, by decide⟩ (.htif .empty))),
    .writeBytes 0 [0x93, 0x00, 0xF0, 0xFF, 0xB3, 0x90, 0x10, 0x00, 0x33, 0xC1, 0x00, 0x02,
      0x23, 0x22, 0x10, 0x10]]

/-- The machine that is about to run the program. -/
def edgeMachine : Machine := (Machine.session edgeCalls (.initial ⟨0, 0⟩ .empty)).2

theorem edgeMachine_runs :
    (Machine.session edgeCalls (.initial ⟨0, 0⟩ .empty)).1 =
        [.attached 0, .overlaps ⟨⟨0x80, 0x17F, by decide⟩⟩, .attached 1, .done] ∧
      edgeMachine.executed (4 : DoubleWord).toNat < 2 ^ 64 ∧
      run 4 edgeMachine = plain (edgeMachine.run (4 : DoubleWord).toNat) ∧
      (edgeMachine.run 4).value.hart.x 1 = 0x80000000 ∧
      (edgeMachine.run 4).value.hart.x 2 = 0xFFFFFFFF ∧
      (edgeMachine.run 4).value.hart.pc = 16 := by
  have fits : edgeMachine.executed (4 : DoubleWord).toNat < 2 ^ 64 := by decide +kernel
  exact ⟨by decide +kernel, fits, run_session ⟨0, 0⟩ edgeCalls 4 fits, by decide +kernel,
    by decide +kernel, by decide +kernel⟩

end Rv32.Checked
