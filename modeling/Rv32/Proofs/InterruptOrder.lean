import Rv32.Proofs.CsrAccess

/-!
# The order in which interrupts are taken

The interrupt to take is the first of the admissible ones in one order of urgency
(`Interrupts.next_eq_some_iff`). The level at which an interrupt is handled decides whether it is
admissible, and plays no part in the order.

So an interrupt of S-mode that M-mode has kept to itself can wait behind one that is delegated
(`Interrupts.delegatedExternal_first`). This is all that can happen: the interrupts of M-mode cannot
be delegated and come before those of S-mode (`Interrupts.passed_over_by_delegated`).
-/

namespace Rv32

namespace Interrupt

/-- The place of an interrupt in the order of urgency, with the smallest number for the most urgent.
-/
def rank (interrupt : Interrupt) : Nat := priority.idxOf interrupt

/-- Whether an interrupt is one of S-mode. -/
def isSupervisor : Interrupt → Bool
  | supervisorSoftware | supervisorTimer | supervisorExternal => true
  | machineSoftware | machineTimer | machineExternal => false

theorem rank_lt_length (interrupt : Interrupt) : interrupt.rank < priority.length :=
  List.idxOf_lt_length_of_mem (mem_priority interrupt)

theorem getElem_rank (interrupt : Interrupt) (inside : interrupt.rank < priority.length) :
    priority[interrupt.rank] = interrupt :=
  List.getElem_idxOf _

theorem rank_getElem (place : Nat) (inside : place < priority.length) :
    priority[place].rank = place :=
  List.Nodup.idxOf_getElem (by decide) place inside

theorem rank_inj {first second : Interrupt} (same : first.rank = second.rank) : first = second := by
  rw [← first.getElem_rank first.rank_lt_length, ← second.getElem_rank second.rank_lt_length]
  simp only [same]

/-- All interrupts of M-mode are more urgent than those of S-mode. -/
theorem rank_lt_of_isSupervisor {first second : Interrupt} (machine : first.isSupervisor = false)
    (supervisor : second.isSupervisor = true) : first.rank < second.rank := by
  cases first <;> cases machine <;> cases second <;> cases supervisor <;> decide

end Interrupt

namespace Interrupts

variable {interrupts : Interrupts} {level : Privilege} {status : Status}

/-- The interrupt to take is the most urgent of the admissible ones. -/
theorem next_eq_some_iff {taken : Interrupt} :
    interrupts.next level status = some taken ↔
      interrupts.admissible level status taken = true ∧
        ∀ other, interrupts.admissible level status other = true → taken.rank ≤ other.rank := by
  unfold next
  rw [List.find?_eq_some_iff_getElem]
  refine and_congr_right fun _ => ⟨?_, fun urgent => ?_⟩
  · rintro ⟨place, inside, rfl, earlier⟩ other admissible
    rw [Interrupt.rank_getElem]
    refine Nat.le_of_not_lt fun before => ?_
    have refused := earlier other.rank before
    rw [Interrupt.getElem_rank, admissible] at refused
    cases refused
  · refine ⟨taken.rank, taken.rank_lt_length, taken.getElem_rank _, fun place before => ?_⟩
    rw [Bool.not_eq_true', Bool.eq_false_iff]
    intro admissible
    have later := urgent _ admissible
    rw [Interrupt.rank_getElem] at later
    exact Nat.not_lt.2 later before

/-- Only interrupts of S-mode are ever delegated. -/
theorem isSupervisor_of_delegated {interrupt : Interrupt}
    (delegated : interrupts.delegated interrupt = true) : interrupt.isSupervisor = true := by
  have legal := interrupts.mideleg.legal_of_getLsbD delegated
  cases interrupt <;> first | rfl | cases legal

/-- Where a delegated interrupt is admissible, one that is not delegated is so if it is pending and
enabled. -/
theorem admissible_of_kept {taken other : Interrupt}
    (admissible : interrupts.admissible level status taken = true)
    (delegated : interrupts.delegated taken = true) (kept : interrupts.delegated other = false) :
    interrupts.admissible level status other = interrupts.pendingEnabled.getLsbD other.code := by
  unfold Interrupts.admissible at admissible ⊢
  rw [delegated] at admissible
  rw [kept]
  cases level with
  | machine =>
      rw [if_pos rfl, supervisorEnabled, Bool.and_false] at admissible
      cases admissible
  | supervisor | user => exact Bool.and_true _

/-- While the interrupt to take is a delegated one, the interrupts that are kept for M-mode are
admissible as soon as they are pending and enabled. Those that are passed over are interrupts of
S-mode behind the one that is taken; an interrupt of M-mode is never passed over. -/
theorem passed_over_by_delegated {taken : Interrupt}
    (isNext : interrupts.next level status = some taken)
    (delegated : interrupts.delegated taken = true) (other : Interrupt)
    (kept : interrupts.delegated other = false) :
    interrupts.admissible level status other = interrupts.pendingEnabled.getLsbD other.code ∧
      (interrupts.admissible level status other = true →
        other.isSupervisor = true ∧ taken.rank < other.rank) := by
  obtain ⟨admissible, urgent⟩ := next_eq_some_iff.1 isNext
  refine ⟨admissible_of_kept admissible delegated kept, fun otherAdmissible => ?_⟩
  have later := urgent other otherAdmissible
  have different : taken.rank ≠ other.rank := by
    intro same
    rw [Interrupt.rank_inj same, kept] at delegated
    cases delegated
  refine ⟨?_, Nat.lt_of_le_of_ne later different⟩
  cases supervisor : other.isSupervisor with
  | true => rfl
  | false =>
      have before := Interrupt.rank_lt_of_isSupervisor supervisor
        (isSupervisor_of_delegated delegated)
      exact absurd later (Nat.not_le.2 before)

/-- The external and the software interrupt of S-mode are pending and enabled. The external one is
delegated. -/
def delegatedExternal : Interrupts := .ofWords 0x200 0x202 0x202

/-- The delegated external interrupt is taken, and the software interrupt waits behind it. -/
theorem delegatedExternal_passes_over :
    delegatedExternal.next .user .reset = some .supervisorExternal ∧
      delegatedExternal.delegated .supervisorExternal = true ∧
      delegatedExternal.delegated .supervisorSoftware = false ∧
      delegatedExternal.admissible .user .reset .supervisorSoftware = true ∧
      Interrupt.supervisorExternal.rank < Interrupt.supervisorSoftware.rank := by
  have isNext : delegatedExternal.next .user .reset = some .supervisorExternal := by decide
  have delegated : delegatedExternal.delegated .supervisorExternal = true := by decide
  have kept : delegatedExternal.delegated .supervisorSoftware = false := by decide
  have admissible : delegatedExternal.admissible .user .reset .supervisorSoftware = true := by
    decide
  obtain ⟨-, passed⟩ := passed_over_by_delegated isNext delegated .supervisorSoftware kept
  exact ⟨isNext, delegated, kept, admissible, (passed admissible).2⟩

/-- That a delegated interrupt is taken does not mean that nothing is admissible for M-mode. -/
theorem delegatedExternal_first :
    ¬ ∀ taken, delegatedExternal.next .user .reset = some taken →
      delegatedExternal.delegated taken = true →
      ∀ other, delegatedExternal.delegated other = false →
        delegatedExternal.admissible .user .reset other = false := by
  intro machineFirst
  have refused := machineFirst .supervisorExternal (by decide) (by decide) .supervisorSoftware
    (by decide)
  cases refused.symm.trans (by decide : _ = true)

end Interrupts

end Rv32
