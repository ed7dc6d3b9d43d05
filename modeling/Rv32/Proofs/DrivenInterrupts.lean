import Rv32.Proofs.CsrAccess
import Rv32.Proofs.Sessions

/-!
# Which pending interrupts a program can change

Some parts of a hart change only by the write of an instruction on control and status registers
(`Hart.ChangedByWrites`), so what the next instruction writes says all about them
(`Machine.part_executeNext`). The interrupt registers are such a part, also over a turn
(`Machine.interrupts_turn`). The pending bits outside `writableInterrupts` are meant to be driven by
devices only.

Through `mip` a program respects this. Through `sip` it reaches what is delegated, and the external
interrupt of S-mode can be delegated although it is driven: `Interrupts.overwritesExternal` are the
writes by which a program changes it. `Machine.driven_interrupts` says that this is the only way,
for turns and runs, and names the calls by which the host can change pending bits;
`Machine.externalProgram_overwrites` is a program that raises the interrupt by itself.
-/

namespace Rv32

/-! ## What an instruction writes -/

/-- An instruction that does not read the old value does not depend on it. -/
theorem CsrOp.eval_of_ignores {op : CsrOp} {rd : Reg}
    (ignores : (op != .readWrite || rd != Reg.zero) = false) (old operand : Word) :
    op.eval old operand = op.eval 0 operand := by
  cases op with
  | readWrite => rfl
  | readSet | readClear => cases ignores

namespace Hart

/-- The register that is written by an access that is allowed, with the value written. -/
def grantedWrite (hart : Hart) (address : CsrAddress) (writes : Bool) (change : Word → Word) :
    Option (Csr × Word) :=
  match hart.checkCsr address writes, Csr.ofAddress? address with
  | .ok (), some register =>
    if writes then some (register, change (hart.readCsr register)) else none
  | _, _ => none

/-- The control and status register that an instruction writes, with the value. -/
def written (hart : Hart) : Instruction → Option (Csr × Word)
  | .csr op _ number rs1 =>
    hart.grantedWrite (number.setWidth 16) (op = .readWrite || rs1 != Reg.zero)
      (op.eval · (hart.x rs1))
  | .csrImm op _ number imm =>
    hart.grantedWrite (number.setWidth 16) (op = .readWrite || imm != 0)
      (op.eval · (imm.setWidth 32))
  | _ => none

theorem written_eq_none (hart : Hart) {instruction : Instruction}
    (other : instruction.isCsr = false) : hart.written instruction = none := by
  cases instruction with
  | csr op rd number rs1 => cases other
  | csrImm op rd number imm => cases other
  | _ => rfl

end Hart

namespace Interrupts

/-- The interrupt registers after a write to a register. -/
def afterWrite (interrupts : Interrupts) : Option (Csr × Word) → Interrupts
  | some (.sie, value) => interrupts.writeSie value
  | some (.sip, value) => interrupts.writeSip value
  | some (.mideleg, value) => interrupts.writeMideleg value
  | some (.mie, value) => interrupts.writeMie value
  | some (.mip, value) => interrupts.writeMip value
  | _ => interrupts

end Interrupts

/-- A part of the hart that instructions change by writing control and status registers only. What
becomes of it is said by `afterWrite`. -/
structure Hart.ChangedByWrites {α : Type} (part : Hart → α)
    (afterWrite : α → Option (Csr × Word) → α) : Prop where
  frame : ∀ (hart : Hart) registers status privilege reservation halted tlb,
    part
        { hart with
          registers := registers, status := status, privilege := privilege
          reservation := reservation, halted := halted, tlb := tlb } =
      part hart
  unwritten : ∀ value, afterWrite value none = value
  write : ∀ (hart : Hart) register value,
    part (hart.writeCsr register value).value = afterWrite (part hart) (some (register, value))

theorem Hart.interrupts_writeStatus (hart : Hart) (value selected : Word) :
    (hart.writeStatus value selected).value.interrupts = hart.interrupts := by
  obtain ⟨tlb, after⟩ := hart.value_writeStatus value selected
  rw [after]

theorem Hart.interrupts_writeSatp (hart : Hart) (value : Word) :
    (hart.writeSatp value).value.interrupts = hart.interrupts := by
  obtain ⟨tlb, after⟩ := hart.value_writeSatp value
  rw [after]

theorem Hart.interrupts_writeCsr (hart : Hart) (register : Csr) (value : Word) :
    (hart.writeCsr register value).value.interrupts =
      hart.interrupts.afterWrite (some (register, value)) := by
  cases register with
  | sstatus | mstatus => exact hart.interrupts_writeStatus value _
  | satp => exact hart.interrupts_writeSatp value
  | _ => rfl

theorem Hart.interrupts_changedByWrites :
    Hart.ChangedByWrites Hart.interrupts Interrupts.afterWrite where
  frame _ _ _ _ _ _ _ := rfl
  unwritten _ := rfl
  write := interrupts_writeCsr

theorem Hart.interrupts_enterTrap (hart : Hart) (cause : Cause) :
    (hart.enterTrap cause).value.interrupts = hart.interrupts := by
  obtain ⟨_, _, _, _, _, _, _, entered⟩ := hart.enterTrap_frame cause
  rw [entered]

/-! ## What a turn writes -/

section ChangedByWrites

variable {α : Type} {part : Hart → α} {afterWrite : α → Option (Csr × Word) → α}
  (changed : Hart.ChangedByWrites part afterWrite)

include changed

/-- What an ordinary instruction changes is none of the part. -/
theorem Hart.ChangedByWrites.program {before after : Hart} (same : before.EqModProgram after) :
    part after = part before := by
  obtain ⟨registers, tlb, reservation, rfl⟩ := same
  exact changed.frame ..

/-- Instructions on other things leave the part alone. -/
theorem Hart.Retires.unwritten {before after : Hart} {instruction : Instruction}
    (retires : before.Retires instruction after) (other : instruction.isCsr = false) :
    part after = part before := by
  cases retires with
  | ordinary plain same => exact changed.program same
  | csr value isCsr => exact Bool.noConfusion (other.symm.trans isCsr)
  | sret allowed =>
      rw [value_returnFromSupervisor]
      exact changed.frame ..
  | mret machine =>
      rw [value_returnFromMachine]
      exact changed.frame ..
  | wfi halted allowed =>
      exact changed.frame before _ before.status before.privilege before.reservation halted
        before.tlb
  | fence allowed =>
      exact changed.frame before _ before.status before.privilege before.reservation before.halted
        .empty

namespace Machine

variable {machine : Machine}

/-- An access writes what it is granted, whether or not it reads. -/
theorem part_accessCsr {rd : Reg} {address : CsrAddress} {reads writes : Bool}
    {change : Word → Word} {raw length : Word}
    (blind : reads = false → ∀ old, change old = change 0) :
    part ((accessCsr rd address reads writes change raw length).outcome machine).2.hart =
      afterWrite (part machine.hart) (machine.hart.grantedWrite address writes change) := by
  unfold accessCsr Hart.grantedWrite
  rw [Attempt.outcome_lift_bind, Effect.outcome_getHart]
  rcases allowed : machine.hart.checkCsr address writes with refused | ⟨⟩
  · exact (changed.unwritten _).symm
  · rcases found : Csr.ofAddress? address with _ | register
    · exact (changed.unwritten _).symm
    · dsimp only
      cases writes with
      | false =>
          rw [if_neg Bool.false_ne_true, if_neg Bool.false_ne_true, changed.unwritten]
          exact changed.program (.setX_advance ..)
      | true =>
          have same : change (if reads then machine.hart.readCsr register else 0) =
              change (machine.hart.readCsr register) := by
            cases reads with
            | false => exact (blind rfl _).symm
            | true => rfl
          rw [if_pos rfl, if_pos rfl, ← same, ← changed.write]
          exact changed.program (.setX_advance ..)

theorem part_execute_of_other {instruction : Instruction} {raw length : Word}
    (other : instruction.isCsr = false) :
    part ((execute instruction raw length).outcome machine).2.hart = part machine.hart := by
  rcases ran : (execute instruction raw length).outcome machine with ⟨raised | done, after⟩
  · rcases execute_error_hart ran with same | ⟨-, same⟩
    · exact congrArg part same
    · exact (congrArg part same).trans (changed.frame ..)
  · exact (execute_ok ran).unwritten changed other

/-- The part changes by what an instruction writes, whether or not it completes. -/
theorem part_execute (instruction : Instruction) (raw length : Word) (machine : Machine) :
    part ((execute instruction raw length).outcome machine).2.hart =
      afterWrite (part machine.hart) (machine.hart.written instruction) := by
  cases isCsr : instruction.isCsr with
  | false =>
      rw [machine.hart.written_eq_none isCsr, changed.unwritten]
      exact part_execute_of_other changed isCsr
  | true =>
      unfold execute
      rw [Attempt.outcome_lift_bind, Effect.outcome_getHart]
      cases instruction with
      | csr op rd number rs1 =>
          exact part_accessCsr changed fun ignores old => CsrOp.eval_of_ignores ignores old _
      | csrImm op rd number imm =>
          exact part_accessCsr changed fun ignores old => CsrOp.eval_of_ignores ignores old _
      | _ => cases isCsr

end Machine

end ChangedByWrites

namespace Machine

variable {machine : Machine}

/-- The control and status register that the next instruction writes, with the value. -/
def nextWritten (machine : Machine) : Option (Csr × Word) :=
  machine.nextInstruction.bind machine.hart.written

theorem part_executeNext {α : Type} {part : Hart → α} {afterWrite : α → Option (Csr × Word) → α}
    (changed : Hart.ChangedByWrites part afterWrite) (machine : Machine) :
    part (executeNext.outcome machine).2.hart =
      afterWrite (part machine.hart) machine.nextWritten := by
  have kept := fetch_hartCached machine
  have blind : ∀ (hart : Hart) tlb, part { hart with tlb := tlb } = part hart :=
    fun hart tlb => changed.frame hart _ _ _ _ _ tlb
  unfold nextWritten nextInstruction
  rw [executeNext_outcome]
  rcases wasFetched : fetch.outcome machine with ⟨raised | raw, fetched⟩
  all_goals rw [wasFetched] at kept
  · exact (Hart.EqModTlb.apply blind kept).trans (changed.unwritten _).symm
  · dsimp only
    rcases decodeFetched raw with refused | ⟨instruction, length⟩
    · exact (Hart.EqModTlb.apply blind kept).trans (changed.unwritten _).symm
    · have written : fetched.hart.written instruction = machine.hart.written instruction :=
        kept.apply (f := fun hart => hart.written instruction) fun _ _ => rfl
      rw [part_execute changed, Hart.EqModTlb.apply blind kept, written]
      rfl

/-- The control and status register that a turn writes, with the value. A hart that waits writes
none, and neither does one that takes an interrupt. -/
def written (machine : Machine) : Option (Csr × Word) :=
  if machine.hart.halted || machine.hart.nextInterrupt.isSome then none
  else machine.counted.nextWritten

/-- The interrupt registers after a turn are those after what it writes. -/
theorem interrupts_turn (machine : Machine) :
    machine.turn.hart.interrupts = machine.hart.interrupts.afterWrite machine.written := by
  unfold turn written
  cases machine.hart.halted with
  | true => rfl
  | false =>
      rw [if_neg Bool.false_ne_true, Bool.false_or, ← cycleBy_executeNext, cycleBy_outcome]
      cases machine.hart.nextInterrupt with
      | some interrupt => exact machine.hart.interrupts_enterTrap _
      | none =>
          have executed := part_executeNext Hart.interrupts_changedByWrites machine.counted
          dsimp only
          rcases ran : executeNext.outcome machine.counted with ⟨raised | done, after⟩
          · rw [ran] at executed
            exact (after.hart.interrupts_enterTrap _).trans executed
          · rw [ran] at executed
            exact executed

end Machine

/-! ## The bits that devices drive -/

namespace Interrupts

/-- The pending bits that are not for programs to write. -/
def driven (interrupts : Interrupts) : Word := interrupts.mip &&& ~~~writableInterrupts

/-- Whether a write changes whether the external interrupt of S-mode is pending: the window of
S-mode gives access to it if it is delegated. -/
def overwritesExternal (interrupts : Interrupts) : Option (Csr × Word) → Bool
  | some (.sip, value) =>
    interrupts.delegated .supervisorExternal &&
      value.getLsbD Interrupt.supervisorExternal.code !=
        interrupts.mip.getLsbD Interrupt.supervisorExternal.code
  | _ => false

/-- What can be delegated and is not for programs to write is the external interrupt of S-mode. -/
theorem delegable_driven {bit : Nat} (delegable : delegableInterrupts.getLsbD bit = true)
    (driven : writableInterrupts.getLsbD bit = false) :
    bit = Interrupt.supervisorExternal.code := by
  have all : ∀ bit < 32, delegableInterrupts.getLsbD bit = true →
      writableInterrupts.getLsbD bit = false → bit = Interrupt.supervisorExternal.code := by
    decide
  exact all bit (BitVec.lt_of_getLsbD delegable) delegable driven

theorem getLsbD_driven (interrupts : Interrupts) {bit : Nat} (inside : bit < 32) :
    interrupts.driven.getLsbD bit =
      (interrupts.mip.getLsbD bit && !writableInterrupts.getLsbD bit) := by
  unfold driven
  rw [BitVec.getLsbD_and, BitVec.getLsbD_not, decide_eq_true inside, Bool.true_and]

theorem getLsbD_writeSip (interrupts : Interrupts) (value : Word) (bit : Nat) :
    (interrupts.writeSip value).mip.getLsbD bit =
      if interrupts.mideleg.bits.getLsbD bit then value.getLsbD bit
      else interrupts.mip.getLsbD bit :=
  Word.getLsbD_select ..

theorem driven_writeSip_eq_iff (interrupts : Interrupts) (value : Word) :
    (interrupts.writeSip value).driven = interrupts.driven ↔
      interrupts.overwritesExternal (some (.sip, value)) = false := by
  unfold overwritesExternal delegated
  dsimp only
  constructor
  · intro same
    have external := congrArg (BitVec.getLsbD · Interrupt.supervisorExternal.code) same
    rw [getLsbD_driven _ (by decide), getLsbD_driven _ (by decide), getLsbD_writeSip] at external
    rw [Bool.and_eq_false_imp]
    intro delegated
    have driven : writableInterrupts.getLsbD Interrupt.supervisorExternal.code = false := rfl
    rw [if_pos delegated, driven, Bool.not_false, Bool.and_true, Bool.and_true] at external
    exact bne_eq_false_iff_eq.2 external
  · intro kept
    rw [Bool.and_eq_false_imp] at kept
    refine BitVec.eq_of_getLsbD_eq fun bit inside => ?_
    rw [getLsbD_driven _ inside, getLsbD_driven _ inside, getLsbD_writeSip]
    cases driven : writableInterrupts.getLsbD bit with
    | true => rw [Bool.not_true, Bool.and_false, Bool.and_false]
    | false =>
        split
        · rename_i selected
          obtain rfl := delegable_driven (interrupts.mideleg.legal_of_getLsbD selected) driven
          rw [bne_eq_false_iff_eq.1 (kept selected)]
        · rfl

/-- A write keeps the bits that devices drive exactly if it is none of the overwriting ones. -/
theorem driven_afterWrite_eq_iff (interrupts : Interrupts) (write : Option (Csr × Word)) :
    (interrupts.afterWrite write).driven = interrupts.driven ↔
      interrupts.overwritesExternal write = false := by
  rcases write with _ | ⟨register, value⟩
  · exact iff_of_true rfl rfl
  · cases register with
    | sip => exact interrupts.driven_writeSip_eq_iff value
    | mip => exact iff_of_true (Word.select_outside ..) rfl
    | _ => exact iff_of_true rfl rfl

/-- No write reaches the bits that cannot be delegated. -/
theorem undelegable_afterWrite (interrupts : Interrupts) (write : Option (Csr × Word)) :
    (interrupts.afterWrite write).mip &&& ~~~delegableInterrupts =
      interrupts.mip &&& ~~~delegableInterrupts := by
  rcases write with _ | ⟨register, value⟩
  · rfl
  · cases register with
    | sip => exact Word.select_beyond _ _ interrupts.mideleg.bits_legal
    | mip => exact Word.select_beyond _ _ (by decide)
    | _ => rfl

end Interrupts

/-! ## Turns, runs and calls of the host -/

namespace Machine

variable {machine : Machine}

/-- Whether a turn changes by a write whether the external interrupt of S-mode is pending. -/
def overwritesExternal (machine : Machine) : Bool :=
  machine.hart.interrupts.overwritesExternal machine.written

theorem driven_turn_eq_iff (machine : Machine) :
    machine.turn.hart.interrupts.driven = machine.hart.interrupts.driven ↔
      machine.overwritesExternal = false := by
  rw [interrupts_turn]
  exact machine.hart.interrupts.driven_afterWrite_eq_iff _

theorem driven_afterTurns {count : Nat}
    (kept : ∀ turns < count, (afterTurns turns machine).overwritesExternal = false) :
    (afterTurns count machine).hart.interrupts.driven = machine.hart.interrupts.driven := by
  induction count with
  | zero => rfl
  | succ count ih =>
      rw [afterTurns_succ, (driven_turn_eq_iff _).2 (kept count (Nat.lt_succ_self count))]
      exact ih fun turns before => kept turns (Nat.lt_succ_of_lt before)

/-- A run that changes a bit that devices drive has made a turn that overwrites one. -/
theorem exists_overwritesExternal {budget : Nat}
    (changed : (machine.run budget).value.hart.interrupts.driven ≠ machine.hart.interrupts.driven) :
    ∃ turns < budget, (afterTurns turns machine).overwritesExternal = true := by
  obtain ⟨count, spare, few, ran, -⟩ := exists_turns_of_run machine budget
  refine Classical.byContradiction fun none => changed ?_
  rw [ran]
  refine driven_afterTurns fun turns before => Bool.eq_false_iff.2 fun overwrites => ?_
  exact none ⟨turns, Nat.lt_of_lt_of_le before few, overwrites⟩

theorem undelegable_run (machine : Machine) (budget : Nat) :
    (machine.run budget).value.hart.interrupts.mip &&& ~~~delegableInterrupts =
      machine.hart.interrupts.mip &&& ~~~delegableInterrupts := by
  refine run_keeps (fun after => after.hart.interrupts.mip &&& ~~~delegableInterrupts =
    machine.hart.interrupts.mip &&& ~~~delegableInterrupts) ?_ (fun _ _ kept => kept) rfl budget
  intro after kept running
  rw [← turn_running running, interrupts_turn, Interrupts.undelegable_afterWrite]
  exact kept

end Machine

/-- Whether the host may set pending bits by a call that does not run the machine. -/
def HostCall.setsPending : HostCall → Bool
  | .serve (.act (.raiseInterrupts _)) | .serve (.act (.lowerInterrupts _))
  | .serve (.act .resetHard) | .serve (.act (.writeCsr ..)) | .serve (.act (.restore _)) => true
  | _ => false

/-- Whether the machine runs during a call. -/
def HostCall.runs : HostCall → Bool
  | .serve (.step _) => true
  | _ => false

theorem HostCall.interrupts_apply {call : HostCall} (machine : Machine)
    (other : call.setsPending = false) (stands : call.runs = false) :
    (call.apply machine).hart.interrupts = machine.hart.interrupts := by
  cases call with
  | serve request =>
      cases request with
      | step cycles => cases stands
      | act action =>
          cases action with
          | reset => rfl
          | attach range device =>
              unfold apply Request.serve HostAction.apply
              dsimp only
              split <;> rfl
          | _ => cases other
  | _ => rfl

namespace Machine

/-- Of the pending bits that devices drive, a program can change only that of the external interrupt
of S-mode, and this only by a write to `sip` while the interrupt is delegated. (1) A turn keeps the
driven bits exactly if it makes no such write; (2) a run keeps all bits that cannot be delegated,
and changes driven bits only if one of its turns makes such a write; (3) other calls of the host
keep all pending bits, unless they are there to set them. -/
theorem driven_interrupts (machine : Machine) :
    (machine.turn.hart.interrupts.driven = machine.hart.interrupts.driven ↔
        machine.overwritesExternal = false) ∧
      (∀ budget,
        let after := (machine.run budget).value
        after.hart.interrupts.mip &&& ~~~delegableInterrupts =
            machine.hart.interrupts.mip &&& ~~~delegableInterrupts ∧
          (after.hart.interrupts.driven ≠ machine.hart.interrupts.driven →
            ∃ turns < budget, (afterTurns turns machine).overwritesExternal = true)) ∧
      ∀ call : HostCall, call.runs = false → call.setsPending = false →
        (call.apply machine).hart.interrupts.mip = machine.hart.interrupts.mip :=
  ⟨driven_turn_eq_iff machine,
    fun budget => ⟨undelegable_run machine budget, exists_overwritesExternal⟩,
    fun call stands other => congrArg Interrupts.mip (call.interrupts_apply machine other stands)⟩

/-- A program that delegates the external interrupt of S-mode and then makes it pending. -/
def externalProgram : Machine :=
  initial ⟨0, 0⟩ (.allMemory
    [0x93, 0x02, 0x00, 0x20, 0x73, 0x90, 0x32, 0x30, 0x73, 0x90, 0x42, 0x14])

/-- No device has asked for the interrupt that is pending in the end. -/
theorem externalProgram_overwrites :
    externalProgram.hart.interrupts.driven = 0 ∧
      (afterTurns 2 externalProgram).overwritesExternal = true ∧
      (externalProgram.run 3).value.hart.interrupts.driven = 0x200 :=
  ⟨by decide +kernel, by decide +kernel, by decide +kernel⟩

/-- The run of this program makes an overwriting turn, which a reset does not take back. -/
theorem externalProgram_run :
    (∃ turns < 3, (afterTurns turns externalProgram).overwritesExternal = true) ∧
      ((HostCall.serve (.act .reset)).apply
        (externalProgram.run 3).value).hart.interrupts.mip = 0x200 := by
  have changed : (externalProgram.run 3).value.hart.interrupts.driven ≠
      externalProgram.hart.interrupts.driven := by decide +kernel
  have pending : (externalProgram.run 3).value.hart.interrupts.mip = 0x200 := by decide +kernel
  have kept := (driven_interrupts (externalProgram.run 3).value).2.2 (.serve (.act .reset)) rfl rfl
  exact ⟨((driven_interrupts externalProgram).2.1 3).2 changed, kept.trans pending⟩

end Machine

end Rv32
