import Rv32.Proofs.Retire
import Rv32.Proofs.TrapForms

/-!
# Returning from a trap at once

A trap saves what it overwrites, and the return instruction of its level puts it back. So a handler
that does nothing but return leaves hardly a trace: `Machine.trap_then_return` says what a trap
writes, and which hart it gives together with a return that follows at once.

The program counter comes back only if it is even, because the register that saves it has no lowest
bit.
-/

namespace Rv32

/-- The instruction that returns from a handler of a level. -/
def Instruction.returnFrom (level : Privilege) : Instruction :=
  match level with
  | .machine => .mret
  | _ => .sret

namespace Hart

/-- Whether M-mode has delegated a cause to S-mode. -/
def delegationBit (hart : Hart) (cause : Cause) : Bool :=
  match cause with
  | .exception raised => (hart.readCsr .medeleg).getLsbD raised.code
  | .interrupt taken => (hart.readCsr .mideleg).getLsbD taken.code

/-- The hart without what a trap to a level may write: the registers that record such a trap, apart
from the scratch register, the fields of the status register that belong to such traps, the level,
the program counter, the number of cycles and the caches. -/
def apartFromTrap (hart : Hart) (target : Privilege) : Hart :=
  let rest :=
    { hart with
      registers := { hart.registers with pc := 0 }
      privilege := .user
      mcycle := 0
      tlb := .empty }
  match target with
  | .machine =>
    { rest with
      machineTrap := { hart.machineTrap with epc := .zero, cause := 0, tval := 0 }
      status := { hart.status with mpp := .user, mpie := false, mie := false } }
  | _ =>
    { rest with
      supervisorTrap := { hart.supervisorTrap with epc := .zero, cause := 0, tval := 0 }
      status := { hart.status with spp := false, spie := false, sie := false } }

/-- The hart as it was before a trap, with what the trap recorded at its level and the cycles it
took, and with what a return always sets: interrupts are open at the next return, which leads to
U-mode, and no level is lent below M-mode. -/
def resumed (before entered : Hart) : Hart :=
  let status : Status :=
    { before.status with mprv := before.status.mprv && decide (before.privilege = .machine) }
  match entered.privilege with
  | .machine =>
    { before with
      machineTrap := entered.machineTrap
      mcycle := entered.mcycle
      status := { status with mpie := true, mpp := .user } }
  | _ =>
    { before with
      supervisorTrap := entered.supervisorTrap
      mcycle := entered.mcycle
      status := { status with spie := true, spp := false } }

/-! ## Entry -/

theorem delegates_iff (hart : Hart) (cause : Cause) :
    hart.delegates cause = true ↔
      hart.privilege ≤ .supervisor ∧ hart.delegationBit cause = true := by
  unfold delegates
  rw [Bool.and_eq_true, decide_eq_true_iff]
  cases cause <;> rfl

/-- A trap leads to S-mode from S-mode and U-mode only, and only if its cause is delegated. -/
theorem privilege_enterTrap (hart : Hart) (cause : Cause) :
    (hart.enterTrap cause).value.privilege =
      if hart.privilege ≤ .supervisor ∧ hart.delegationBit cause = true then .supervisor
      else .machine := by
  rcases handled : hart.delegates cause with _ | _
  · have kept := mt (delegates_iff hart cause).2 (Bool.eq_false_iff.1 handled)
    rw [value_enterTrap_machine handled, if_neg kept]
  · have delegated := (delegates_iff hart cause).1 handled
    rw [value_enterTrap_supervisor handled, if_pos delegated]

theorem le_privilege_enterTrap (hart : Hart) (cause : Cause) :
    hart.privilege ≤ (hart.enterTrap cause).value.privilege := by
  rw [privilege_enterTrap]
  split
  · rename_i delegated
    exact delegated.1
  · cases hart.privilege <;> decide

theorem apartFromTrap_enterTrap (hart : Hart) (cause : Cause) :
    (hart.enterTrap cause).value.apartFromTrap (hart.enterTrap cause).value.privilege =
      hart.apartFromTrap (hart.enterTrap cause).value.privilege := by
  rcases handled : hart.delegates cause with _ | _
  · rw [value_enterTrap_machine handled]
    rfl
  · rw [value_enterTrap_supervisor handled]
    rfl

/-! ## Return -/

/-- An even address survives in the register that saves it. -/
theorem epc_enter (record : TrapRecord) {pc : Word} (even : pc.getLsbD 0 = false) (cause : Cause) :
    (record.enter pc cause).epc.bits = pc := by
  refine BitVec.eq_of_getLsbD_eq fun bit inside => ?_
  change (pc &&& instructionAddressBits).getLsbD bit = pc.getLsbD bit
  rw [BitVec.getLsbD_and]
  cases bit with
  | zero => rw [even, Bool.false_and]
  | succ bit =>
      have set : ∀ bit < 31, instructionAddressBits.getLsbD (bit + 1) = true := by decide
      rw [set bit (by omega), Bool.and_true]

theorem sppLevel_enterSupervisor (status : Status) {left : Privilege} (below : left ≠ .machine) :
    (status.enterSupervisor left).sppLevel = left := by
  cases left with
  | user => rfl
  | supervisor => rfl
  | machine => exact absurd rfl below

theorem allowsSupervisor_of_supervisor {hart : Hart} {trapped : Bool}
    (level : hart.privilege = .supervisor) (allowed : trapped = false) :
    hart.allowsSupervisor trapped = true := by
  unfold allowsSupervisor
  rw [level, allowed]
  rfl

/-- A return from the trap that was handled in M-mode. -/
theorem returnFromMachine_enterTrap {hart : Hart} {cause : Cause}
    (handled : hart.delegates cause = false) (even : hart.pc.getLsbD 0 = false) :
    ∃ tlb, (hart.enterTrap cause).value.returnFromMachine.value =
      { hart.resumed (hart.enterTrap cause).value with tlb := tlb } := by
  have epc := epc_enter hart.machineTrap even cause
  rw [value_returnFromMachine, value_enterTrap_machine handled]
  dsimp only
  rw [epc]
  exact ⟨_, rfl⟩

/-- A return from the trap that was handled in S-mode. -/
theorem returnFromSupervisor_enterTrap {hart : Hart} {cause : Cause}
    (handled : hart.delegates cause = true) (even : hart.pc.getLsbD 0 = false) :
    ∃ tlb, (hart.enterTrap cause).value.returnFromSupervisor.value =
      { hart.resumed (hart.enterTrap cause).value with tlb := tlb } := by
  have epc := epc_enter hart.supervisorTrap even cause
  have below := privilege_ne_machine_of_delegates handled
  have level := sppLevel_enterSupervisor hart.status below
  have unlent : (hart.status.mprv && decide (hart.privilege = .machine)) = false := by
    rw [decide_eq_false below, Bool.and_false]
  rw [enterSupervisor_eq _ below] at level
  rw [value_returnFromSupervisor, value_enterTrap_supervisor handled]
  unfold resumed
  dsimp only
  rw [epc, level, unlent]
  exact ⟨_, rfl⟩

end Hart

namespace Machine

/-- A trap and the return from it. (1) The trap never lowers the level. It leads to S-mode exactly
if the level was at most that and the cause is delegated, else to M-mode. It leaves alone what
does not belong to traps of the level it leads to. (2) The return instruction of that level,
which in S-mode must be allowed, gives back the machine from before the trap, except for what the
trap recorded and what a return always sets. -/
theorem trap_then_return (machine : Machine) (cause : Cause)
    (even : machine.hart.pc.getLsbD 0 = false) :
    let before := machine.hart
    let entered := machine.trapped cause
    let target := entered.hart.privilege
    (before.privilege ≤ target ∧
      target =
        (if before.privilege ≤ .supervisor ∧ before.delegationBit cause = true then .supervisor
        else .machine) ∧
      entered.hart.apartFromTrap target = before.apartFromTrap target ∧
      entered.bus = machine.bus) ∧
    ((target = .supervisor → before.status.tsr = false) →
      ∀ raw length, ∃ tlb,
        (execute (.returnFrom target) raw length).outcome entered =
          (.ok (), { machine with hart := { before.resumed entered.hart with tlb := tlb } })) := by
  intro before entered target
  refine ⟨⟨before.le_privilege_enterTrap cause, before.privilege_enterTrap cause,
    before.apartFromTrap_enterTrap cause, rfl⟩, fun unlocked raw length => ?_⟩
  rcases handled : before.delegates cause with _ | _
  · have top : target = .machine := congrArg Hart.privilege (Hart.value_enterTrap_machine handled)
    obtain ⟨tlb, returned⟩ : ∃ tlb, entered.hart.returnFromMachine.value =
      { before.resumed entered.hart with tlb := tlb } :=
        Hart.returnFromMachine_enterTrap handled even
    refine ⟨tlb, ?_⟩
    rw [top]
    refine (execute_mret top raw length).trans ?_
    rw [returned]
    rfl
  · have entry := Hart.value_enterTrap_supervisor handled
    have level : target = .supervisor := congrArg Hart.privilege entry
    have tsr : entered.hart.status.tsr = before.status.tsr :=
      congrArg (fun hart => hart.status.tsr) entry
    have allowed := Hart.allowsSupervisor_of_supervisor level (tsr.trans (unlocked level))
    obtain ⟨tlb, returned⟩ : ∃ tlb, entered.hart.returnFromSupervisor.value =
        { before.resumed entered.hart with tlb := tlb } :=
      Hart.returnFromSupervisor_enterTrap handled even
    refine ⟨tlb, ?_⟩
    rw [level]
    refine (execute_sret allowed raw length).trans ?_
    rw [returned]
    rfl

/-- A program in U-mode that has been interrupted between two compressed instructions, under an
M-mode that delegates the timer of S-mode and had lent a level. -/
def interruptedProgram : Machine where
  hart :=
    { Hart.initial ⟨0, 0⟩ with
      registers := .reset 0x1002
      privilege := .user
      status := { Status.reset with sie := true, spp := true, mprv := true, mpp := .supervisor }
      interrupts := .ofWords 0x20 0x20 0x20
      setup := { TrapSetup.reset with stvec := .ofWord _ 0x4001 }
      mcycle := 7 }
  bus := .empty

/-- The timer interrupt leads to S-mode, from where the program gets back its place. -/
theorem interruptedProgram_returns :
    interruptedProgram.hart.pc.getLsbD 0 = false ∧
      (interruptedProgram.trapped (.interrupt .supervisorTimer)).hart.privilege = .supervisor ∧
      interruptedProgram.hart.status.tsr = false ∧
      ∃ tlb,
        (execute .sret 0x10200073 4).outcome
            (interruptedProgram.trapped (.interrupt .supervisorTimer)) =
          (.ok (),
            { interruptedProgram with
              hart :=
                { interruptedProgram.hart with
                  supervisorTrap := .ofWords 0 0x1002 0x80000005 0
                  mcycle := 8
                  status :=
                    { interruptedProgram.hart.status with
                      spie := true, spp := false, mprv := false }
                  tlb := tlb } }) := by
  have even : interruptedProgram.hart.pc.getLsbD 0 = false := by decide
  have target :
      (interruptedProgram.trapped (.interrupt .supervisorTimer)).hart.privilege = .supervisor := by
    decide +kernel
  have unlocked : interruptedProgram.hart.status.tsr = false := rfl
  obtain ⟨tlb, returned⟩ := (trap_then_return interruptedProgram (.interrupt .supervisorTimer)
    even).2 (fun _ => unlocked) 0x10200073 4
  exact ⟨even, target, unlocked, tlb, returned⟩

end Machine

end Rv32
