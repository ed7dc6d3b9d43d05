import Rv32.Hart.Csr
import Rv32.Hart.Trap

/-!
# Traps and returns in closed form

What entering a trap, returning from one and changing the level make of a hart, as one record each.
All of them empty the caches exactly when the level changes, except that a return also does so when
it ends the lending of another level to loads and stores.
-/

namespace Rv32.Hart

/-- A change of level empties the caches; staying at a level changes nothing. -/
theorem value_setPrivilege (hart : Hart) (level : Privilege) :
    (hart.setPrivilege level).value =
      { hart with
        privilege := level
        tlb := if level = hart.privilege then hart.tlb else .empty } := by
  unfold setPrivilege
  split
  · rename_i same
    subst same
    rfl
  · rfl

/-- No trap taken in M-mode is handled in S-mode. -/
theorem privilege_ne_machine_of_delegates {hart : Hart} {cause : Cause}
    (delegated : hart.delegates cause = true) : hart.privilege ≠ .machine := by
  unfold delegates at delegated
  intro top
  rw [top] at delegated
  cases delegated

/-- The level left fits into `spp`, because it is below M-mode. -/
theorem enterSupervisor_eq (status : Status) {left : Privilege} (below : left ≠ .machine) :
    status.enterSupervisor left =
      { status with spp := decide (left = .supervisor), spie := status.sie, sie := false } := by
  cases left with
  | user => rfl
  | supervisor => rfl
  | machine => exact absurd rfl below

/-- A trap that is handled in S-mode. -/
theorem value_enterTrap_supervisor {hart : Hart} {cause : Cause}
    (delegated : hart.delegates cause = true) :
    (hart.enterTrap cause).value =
      { hart with
        registers := { hart.registers with pc := hart.setup.stvec.handler cause }
        status :=
          { hart.status with
            spp := decide (hart.privilege = .supervisor), spie := hart.status.sie, sie := false }
        supervisorTrap := hart.supervisorTrap.enter hart.pc cause
        mcycle := hart.mcycle + 1
        privilege := .supervisor
        tlb := if .supervisor = hart.privilege then hart.tlb else .empty } := by
  rw [← enterSupervisor_eq _ (privilege_ne_machine_of_delegates delegated)]
  unfold enterTrap
  rw [Logged.value_bind, if_pos delegated, Logged.value_bind, value_setPrivilege]
  rfl

/-- A trap that is handled in M-mode. -/
theorem value_enterTrap_machine {hart : Hart} {cause : Cause}
    (kept : hart.delegates cause = false) :
    (hart.enterTrap cause).value =
      { hart with
        registers := { hart.registers with pc := hart.setup.mtvec.handler cause }
        status := hart.status.enterMachine hart.privilege
        machineTrap := hart.machineTrap.enter hart.pc cause
        mcycle := hart.mcycle + 1
        privilege := .machine
        tlb := if .machine = hart.privilege then hart.tlb else .empty } := by
  unfold enterTrap
  rw [Logged.value_bind, if_neg (Bool.eq_false_iff.1 kept), Logged.value_bind, value_setPrivilege]
  rfl

/-- A trap reaches none of the interrupt registers and of what sets traps up, and wakes no hart. -/
theorem enterTrap_frame (hart : Hart) (cause : Cause) :
    ∃ registers status machineTrap supervisorTrap mcycle privilege tlb,
      (hart.enterTrap cause).value =
        { hart with
          registers := registers, status := status, machineTrap := machineTrap
          supervisorTrap := supervisorTrap, mcycle := mcycle, privilege := privilege
          tlb := tlb } := by
  rcases handled : hart.delegates cause with _ | _
  · exact ⟨_, _, _, _, _, _, _, value_enterTrap_machine handled⟩
  · exact ⟨_, _, _, _, _, _, _, value_enterTrap_supervisor handled⟩

theorem halted_enterTrap (hart : Hart) (cause : Cause) :
    (hart.enterTrap cause).value.halted = hart.halted := by
  obtain ⟨_, _, _, _, _, _, _, entered⟩ := hart.enterTrap_frame cause
  rw [entered]

theorem x_enterTrap (hart : Hart) (cause : Cause) (register : Reg) :
    (hart.enterTrap cause).value.x register = hart.x register := by
  rcases handled : hart.delegates cause with _ | _
  · rw [value_enterTrap_machine handled]
    rfl
  · rw [value_enterTrap_supervisor handled]
    rfl

/-- A return below M-mode ends the lending of a level. -/
theorem value_returnTo (hart : Hart) (level : Privilege) (pc : Word) :
    (hart.returnTo level pc).value =
      { hart with
        registers := { hart.registers with pc := pc }
        status :=
          { hart.status with mprv := hart.status.mprv && decide (level = .machine) }
        privilege := level
        tlb :=
          if level = hart.privilege ∧ (level = .machine ∨ hart.status.mprv = false) then hart.tlb
          else .empty } := by
  unfold returnTo
  by_cases lends : level ≠ .machine ∧ hart.status.mprv = true
  · dsimp only
    rw [if_pos lends, Logged.value_bind, Logged.value_bind]
    have below : decide (level = .machine) = false := decide_eq_false lends.1
    have stale : ¬ (level = hart.privilege ∧ (level = .machine ∨ hart.status.mprv = false)) := by
      simp [lends.1, lends.2]
    rw [below, Bool.and_false, if_neg stale]
    unfold setPrivilege
    split
    · rename_i same
      cases same
      rfl
    · rfl
  · dsimp only
    rw [if_neg lends, Logged.value_bind, Logged.value_bind, value_setPrivilege]
    have kept : level = .machine ∨ hart.status.mprv = false := by
      by_cases top : level = .machine
      · exact .inl top
      · exact .inr (Bool.eq_false_iff.2 fun set => lends ⟨top, set⟩)
    have mprv : (hart.status.mprv && decide (level = .machine)) = hart.status.mprv := by
      rcases kept with top | clear
      · rw [decide_eq_true top, Bool.and_true]
      · rw [clear, Bool.false_and]
    simp only [mprv, kept, and_true]
    rfl

/-- A return from M-mode. -/
theorem value_returnFromMachine (hart : Hart) :
    hart.returnFromMachine.value =
      { hart with
        registers := { hart.registers with pc := hart.machineTrap.epc.bits }
        status :=
          { hart.status.leaveMachine with
            mprv := hart.status.mprv && decide (hart.status.mpp = .machine) }
        privilege := hart.status.mpp
        tlb :=
          if hart.status.mpp = hart.privilege ∧
            (hart.status.mpp = .machine ∨ hart.status.mprv = false) then hart.tlb
          else .empty } :=
  value_returnTo ..

theorem sppLevel_ne_machine (status : Status) : status.sppLevel ≠ .machine := by
  unfold Status.sppLevel
  split <;> exact nofun

/-- A return from S-mode, which never leads to M-mode. -/
theorem value_returnFromSupervisor (hart : Hart) :
    hart.returnFromSupervisor.value =
      { hart with
        registers := { hart.registers with pc := hart.supervisorTrap.epc.bits }
        status := { hart.status.leaveSupervisor with mprv := false }
        privilege := hart.status.sppLevel
        tlb :=
          if hart.status.sppLevel = hart.privilege ∧ hart.status.mprv = false then hart.tlb
          else .empty } := by
  have below := sppLevel_ne_machine hart.status
  unfold returnFromSupervisor
  rw [value_returnTo]
  simp only [below, decide_false, Bool.and_false, false_or]
  rfl

end Rv32.Hart
