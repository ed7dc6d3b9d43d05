import Rv32.Proofs.CycleBudget
import Rv32.Proofs.InterruptOrder
import Rv32.Proofs.TrapReturn

/-!
# Which interrupt a hart takes, and where

`Interrupts.Admits` says in terms of the three interrupt registers, the level and the status when an
interrupt may be taken. The interrupt that a hart takes is the first in the order of urgency that is
admitted (`Interrupts.next_eq_some_iff_first`); pending bits that belong to no interrupt have no
part in that, because they cannot be enabled.

Entering the trap looks at the delegation once more, and also at the level. An admitted interrupt
that is delegated is never taken in M-mode, so the two agree (`Machine.taken_interrupt`): the trap
leads where the delegation says, which is never below the level of the hart.
-/

namespace Rv32

namespace Interrupts

variable {interrupts : Interrupts} {level : Privilege} {status : Status}

/-- A hart at this level may take the interrupt. It must be pending and enabled. If it is delegated,
the hart must be in U-mode, or in S-mode with interrupts open there; else below M-mode, or with
interrupts open for M-mode. -/
def Admits (interrupts : Interrupts) (level : Privilege) (status : Status)
    (interrupt : Interrupt) : Prop :=
  interrupts.mip.getLsbD interrupt.code = true ∧
    interrupts.mie.bits.getLsbD interrupt.code = true ∧
    if interrupts.mideleg.bits.getLsbD interrupt.code = true then
      level = .user ∨ level = .supervisor ∧ status.sie = true
    else level < .machine ∨ status.mie = true

theorem admissible_iff {interrupt : Interrupt} :
    interrupts.admissible level status interrupt = true ↔
      interrupts.Admits level status interrupt := by
  unfold admissible Admits pendingEnabled
  rw [Bool.and_eq_true, BitVec.getLsbD_and, Bool.and_eq_true, and_assoc]
  refine and_congr_right fun _ => and_congr_right fun _ => ?_
  unfold delegated
  split
  · cases level <;> simp [supervisorEnabled]
  · cases level with
    | machine => exact (or_iff_right (by decide)).symm
    | supervisor | user => exact iff_of_true rfl (.inl (by decide))

/-- The interrupt to take is the first one in the order of urgency that is admitted. -/
theorem next_eq_some_iff_first {taken : Interrupt} :
    interrupts.next level status = some taken ↔
      ∃ before after, Interrupt.priority = before ++ taken :: after ∧
        interrupts.Admits level status taken ∧
        ∀ other ∈ before, ¬ interrupts.Admits level status other := by
  unfold next
  rw [List.find?_eq_some_iff_append]
  constructor
  · rintro ⟨admissible, before, after, order, refused⟩
    refine ⟨before, after, order, admissible_iff.1 admissible, fun other earlier => ?_⟩
    rw [← admissible_iff, Bool.not_eq_true, ← Bool.not_eq_true']
    exact refused other earlier
  · rintro ⟨before, after, order, admitted, refused⟩
    refine ⟨admissible_iff.2 admitted, before, after, order, fun other earlier => ?_⟩
    rw [Bool.not_eq_true', ← Bool.not_eq_true, admissible_iff]
    exact refused other earlier

theorem next_eq_none_iff :
    interrupts.next level status = none ↔
      ∀ interrupt, ¬ interrupts.Admits level status interrupt := by
  unfold next
  rw [List.find?_eq_none]
  exact ⟨fun refused interrupt admitted =>
      refused interrupt interrupt.mem_priority (admissible_iff.2 admitted),
    fun refused interrupt _ admissible => refused interrupt (admissible_iff.1 admissible)⟩

/-- Bits without an interrupt are never enabled. -/
theorem pendingEnabled_raise_unimplemented (interrupts : Interrupts) (mask : Word) :
    (interrupts.raise (mask &&& ~~~implementedInterrupts)).pendingEnabled =
      interrupts.pendingEnabled := by
  unfold pendingEnabled raise
  dsimp only
  refine BitVec.eq_of_getLsbD_eq fun bit _ => ?_
  rw [BitVec.getLsbD_and, BitVec.getLsbD_and, BitVec.getLsbD_or, BitVec.getLsbD_and]
  rcases enabled : interrupts.mie.bits.getLsbD bit with _ | _
  · rw [Bool.and_false, Bool.and_false]
  · have implemented := interrupts.mie.legal_of_getLsbD enabled
    simp [implemented]

theorem next_raise_unimplemented (interrupts : Interrupts) (mask : Word) :
    (interrupts.raise (mask &&& ~~~implementedInterrupts)).next level status =
      interrupts.next level status := by
  unfold next admissible
  rw [pendingEnabled_raise_unimplemented]
  rfl

end Interrupts

/-- An interrupt that a hart takes leads to S-mode exactly if it is delegated. -/
theorem Hart.privilege_enterTrap_of_next {hart : Hart} {taken : Interrupt}
    (isNext : hart.nextInterrupt = some taken) :
    (hart.enterTrap (.interrupt taken)).value.privilege =
      if hart.interrupts.mideleg.bits.getLsbD taken.code = true then .supervisor
      else .machine := by
  obtain ⟨-, -, -, ⟨-, -, level⟩, -⟩ := Interrupts.next_eq_some_iff_first.1 isNext
  have bit : hart.delegationBit (.interrupt taken) =
    hart.interrupts.mideleg.bits.getLsbD taken.code := rfl
  have below : hart.interrupts.mideleg.bits.getLsbD taken.code = true →
      hart.privilege ≤ .supervisor := by
    intro delegated
    rw [if_pos delegated] at level
    rcases level with user | ⟨supervisor, -⟩
    · rw [user]
      decide
    · rw [supervisor]
      decide
  rw [hart.privilege_enterTrap, bit]
  simp only [and_iff_right_of_imp below]

namespace Machine

/-- Taking an interrupt leaves a budget but for one cycle. -/
theorem run_of_next {machine : Machine} {taken : Interrupt} (running : machine.hart.halted = false)
    (isNext : machine.hart.nextInterrupt = some taken) (cycles : Nat) :
    (machine.run (cycles + 1)).value =
      ((machine.trapped (.interrupt taken)).run cycles).value := by
  rw [run_turn running, turn_of_next running isNext, cycle_of_next isNext]
  rfl

/-- Interrupts are taken as the registers admit them. (1) The interrupt to take is the first of the
six, in the documented order, that is admitted. (2) There is none exactly if none of the six is
admitted, and pending bits beside the six change nothing in that. (3) A machine that runs takes this
interrupt before anything else. The trap leads to S-mode exactly if the interrupt is delegated, and
never to a level below. -/
theorem interrupts_admitted :
    (∀ (interrupts : Interrupts) (level : Privilege) (status : Status),
      (∀ taken, interrupts.next level status = some taken ↔
        ∃ before after,
          [.machineExternal, .machineSoftware, .machineTimer, .supervisorExternal,
            .supervisorSoftware, .supervisorTimer] = before ++ taken :: after ∧
          interrupts.Admits level status taken ∧
          ∀ other ∈ before, ¬ interrupts.Admits level status other) ∧
        (interrupts.next level status = none ↔
          ∀ interrupt, ¬ interrupts.Admits level status interrupt) ∧
        ∀ mask, (interrupts.raise (mask &&& ~~~implementedInterrupts)).next level status =
          interrupts.next level status) ∧
      ∀ (machine : Machine) (taken : Interrupt), machine.hart.halted = false →
        machine.hart.nextInterrupt = some taken →
        let entered := machine.trapped (.interrupt taken)
        (∀ cycles, (machine.run (cycles + 1)).value = (entered.run cycles).value) ∧
          entered.hart.privilege =
            (if machine.hart.interrupts.mideleg.bits.getLsbD taken.code = true then .supervisor
            else .machine) ∧
          machine.hart.privilege ≤ entered.hart.privilege := by
  refine ⟨fun interrupts level status => ⟨fun _ => Interrupts.next_eq_some_iff_first,
    Interrupts.next_eq_none_iff, interrupts.next_raise_unimplemented⟩, ?_⟩
  intro machine taken running isNext
  exact ⟨run_of_next running isNext, Hart.privilege_enterTrap_of_next isNext,
    machine.hart.le_privilege_enterTrap _⟩

/-- A program in U-mode. The external interrupt of its supervisor is delegated and pending, along
with two of M-mode that are not enabled and a bit without an interrupt. -/
def servedProgram : Machine where
  hart :=
    { Hart.initial ⟨0, 0⟩ with
      privilege := .user
      interrupts := .ofWords 0x200 0x80A80 0x20A }
  bus := .empty

/-- The program is left for S-mode. -/
theorem servedProgram_interrupted :
    servedProgram.hart.halted = false ∧
      servedProgram.hart.nextInterrupt = some .supervisorExternal ∧
      (servedProgram.run 1).value = servedProgram.trapped (.interrupt .supervisorExternal) ∧
      (servedProgram.trapped (.interrupt .supervisorExternal)).hart.privilege = .supervisor := by
  have running : servedProgram.hart.halted = false := rfl
  have isNext : servedProgram.hart.nextInterrupt = some .supervisorExternal := by decide
  obtain ⟨ran, target, -⟩ := interrupts_admitted.2 servedProgram _ running isNext
  exact ⟨running, isNext, (ran 0).trans rfl, target.trans (if_pos (by decide))⟩

end Machine

end Rv32
