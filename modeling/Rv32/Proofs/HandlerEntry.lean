import Rv32.Proofs.InterruptOrder
import Rv32.Proofs.TrapForms
import Rv32.Proofs.Turns

/-!
# The first instruction of a handler

Entering a trap closes interrupts at the level entered, so whatever devices request, no interrupt
of that level or of one below can come before the first instruction of the handler: in M-mode there
is none at all, in S-mode only those are left that M-mode has kept
(`Hart.unpreempted_enterTrap`).

`Machine.TakesInARow` is a row of turns that take interrupts, in front of each of which the pending
bits may be changed at will. As the second interrupt of a row leads to M-mode, no row has three, and
a machine left to itself attempts an instruction after two turns at most
(`Machine.handlers_start`).
-/

namespace Rv32

namespace Interrupts

variable {interrupts : Interrupts} {status : Status}

/-- In M-mode with interrupts closed there, none is taken. -/
theorem next_machine_of_closed (closed : status.mie = false) :
    interrupts.next .machine status = none := by
  unfold next
  rw [List.find?_eq_none]
  intro interrupt _ admissible
  unfold Interrupts.admissible machineEnabled supervisorEnabled at admissible
  rw [closed, ite_self, Bool.and_false] at admissible
  cases admissible

/-- In S-mode with interrupts closed there, none is taken that is delegated. -/
theorem delegated_of_next_supervisor (closed : status.sie = false) {taken : Interrupt}
    (isNext : interrupts.next .supervisor status = some taken) :
    interrupts.delegated taken = false := by
  obtain ⟨admissible, -⟩ := next_eq_some_iff.1 isNext
  unfold Interrupts.admissible supervisorEnabled at admissible
  rcases delegated : interrupts.delegated taken with _ | _
  · rfl
  · rw [delegated, if_pos rfl, closed, Bool.and_false] at admissible
    cases admissible

end Interrupts

namespace Hart

/-- The hart with other pending bits. -/
def withPending (hart : Hart) (pending : Word) : Hart :=
  { hart with interrupts := { hart.interrupts with mip := pending } }

/-- No interrupt of the level of the hart or of one below is taken, whatever is pending. -/
structure Unpreempted (hart : Hart) : Prop where
  machine : hart.privilege = .machine → ∀ pending, (hart.withPending pending).nextInterrupt = none
  supervisor : hart.privilege = .supervisor → ∀ pending taken,
    (hart.withPending pending).nextInterrupt = some taken → hart.interrupts.delegated taken = false
  notUser : hart.privilege ≠ .user

/-- A hart that has just entered a trap. -/
theorem unpreempted_enterTrap (hart : Hart) (cause : Cause) :
    (hart.enterTrap cause).value.Unpreempted := by
  rcases handled : hart.delegates cause with _ | _
  · rw [value_enterTrap_machine handled]
    exact
      { machine := fun _ _ => Interrupts.next_machine_of_closed rfl
        supervisor := nofun
        notUser := nofun }
  · rw [value_enterTrap_supervisor handled]
    exact
      { machine := nofun
        supervisor := fun _ _ _ => Interrupts.delegated_of_next_supervisor rfl
        notUser := nofun }

/-- If an interrupt is taken all the same, it leads to M-mode. -/
theorem Unpreempted.privilege_enterTrap {hart : Hart} (unpreempted : hart.Unpreempted)
    {pending : Word} {taken : Interrupt}
    (isNext : (hart.withPending pending).nextInterrupt = some taken) :
    ((hart.withPending pending).enterTrap (.interrupt taken)).value.privilege = .machine := by
  have kept : (hart.withPending pending).delegates (.interrupt taken) = false := by
    cases level : hart.privilege with
    | user => exact absurd level unpreempted.notUser
    | supervisor =>
        have undelegated := unpreempted.supervisor level pending taken isNext
        exact Bool.and_eq_false_iff.2 (.inr undelegated)
    | machine =>
        rw [unpreempted.machine level pending] at isNext
        cases isNext
  rw [value_enterTrap_machine kept]

end Hart

namespace Machine

/-- The machine with other pending bits. -/
def withPending (machine : Machine) (pending : Word) : Machine :=
  { machine with hart := machine.hart.withPending pending }

/-- The machine takes an interrupt in each of a row of turns, before which its pending bits are set
to these words. -/
def TakesInARow : List Word → Machine → Prop
  | [], _ => True
  | pending :: rest, machine =>
    (machine.withPending pending).hart.halted = false ∧
      (∃ taken, (machine.withPending pending).hart.nextInterrupt = some taken) ∧
      TakesInARow rest (machine.withPending pending).turn

/-- A machine that has just entered a trap takes one interrupt at most before it attempts an
instruction. -/
theorem length_le_one_of_unpreempted {machine : Machine} (unpreempted : machine.hart.Unpreempted)
    {row : List Word} (takes : TakesInARow row machine) : row.length ≤ 1 := by
  match row, takes with
  | [], _ => exact Nat.zero_le 1
  | [_], _ => exact Nat.le_refl 1
  | first :: second :: _, ⟨running, ⟨taken, isNext⟩, _, ⟨next, another⟩, _⟩ =>
      have turned := turn_of_next running isNext
      have inHandler := (machine.withPending first).hart.unpreempted_enterTrap (.interrupt taken)
      have level := unpreempted.privilege_enterTrap isNext
      have none := inHandler.machine level second
      rw [turned] at another
      exact nomatch none.symm.trans another

/-- No row of interrupts has three. -/
theorem TakesInARow.length_le_two {machine : Machine} {row : List Word}
    (takes : TakesInARow row machine) : row.length ≤ 2 := by
  match row, takes with
  | [], _ => exact Nat.zero_le 2
  | first :: rest, ⟨running, ⟨taken, isNext⟩, others⟩ =>
      rw [turn_of_next running isNext] at others
      have inHandler := (machine.withPending first).hart.unpreempted_enterTrap (.interrupt taken)
      exact Nat.succ_le_succ (length_le_one_of_unpreempted inHandler others)

/-- A machine left to itself attempts an instruction soon, or takes interrupts until then. -/
theorem attempts_or_takes {machine : Machine} (running : machine.hart.halted = false)
    (turns : Nat) :
    (∃ delay < turns, (afterTurns delay machine).hart.halted = false ∧
      (afterTurns delay machine).hart.nextInterrupt = none) ∨
      ∃ row, row.length = turns ∧ TakesInARow row machine := by
  induction turns generalizing machine with
  | zero => exact .inr ⟨[], rfl, trivial⟩
  | succ turns ih =>
      cases isNext : machine.hart.nextInterrupt with
      | none => exact .inl ⟨0, Nat.zero_lt_succ turns, running, isNext⟩
      | some taken =>
          have goesOn : machine.turn.hart.halted = false := by
            rw [turn_of_next running isNext]
            exact (machine.hart.halted_enterTrap _).trans running
          rcases ih goesOn with ⟨delay, soon, attempts⟩ | ⟨row, length, takes⟩
          · exact .inl ⟨delay + 1, Nat.succ_lt_succ soon, attempts⟩
          · refine .inr ⟨machine.hart.interrupts.mip :: row, ?_, running, ⟨taken, isNext⟩, takes⟩
            rw [List.length_cons, length]

/-- A handler starts undisturbed by its own level. (1) In front of its first instruction no
interrupt is taken in M-mode and only undelegated ones in S-mode, whatever is pending by then; so if
one is taken, it leads to a level above that of the handler. (2) No three interrupts are taken in a
row, whatever becomes pending between them. (3) A machine that runs attempts an instruction after
two interrupts at most. -/
theorem handlers_start :
    (∀ (hart : Hart) (cause : Cause) (pending : Word),
      let entered := (hart.enterTrap cause).value
      let requested := entered.withPending pending
      (entered.privilege = .machine ∧ requested.nextInterrupt = none ∨
        entered.privilege = .supervisor ∧ ∀ taken, requested.nextInterrupt = some taken →
          entered.interrupts.mideleg.bits.getLsbD taken.code = false) ∧
        ∀ taken, requested.nextInterrupt = some taken →
          entered.privilege < (requested.enterTrap (.interrupt taken)).value.privilege) ∧
      (∀ (machine : Machine) (row : List Word), TakesInARow row machine → row.length ≤ 2) ∧
      ∀ machine : Machine, machine.hart.halted = false →
        ∃ delay ≤ 2, (afterTurns delay machine).hart.halted = false ∧
          (afterTurns delay machine).hart.nextInterrupt = none ∧
          (afterTurns delay machine).turn = (tick.outcome (afterTurns delay machine)).2 := by
  refine ⟨fun hart cause pending => ?_, fun machine row takes => takes.length_le_two,
    fun machine running => ?_⟩
  · have unpreempted := hart.unpreempted_enterTrap cause
    cases level : (hart.enterTrap cause).value.privilege with
    | user => exact absurd level unpreempted.notUser
    | supervisor =>
        refine ⟨.inr ⟨level, unpreempted.supervisor level pending⟩, fun taken isNext => ?_⟩
        have leadsTo := unpreempted.privilege_enterTrap isNext
        exact lt_of_eq_of_lt level (lt_of_lt_of_eq (by decide) leadsTo.symm)
    | machine =>
        have none := unpreempted.machine level pending
        exact ⟨.inl ⟨level, none⟩, fun taken isNext => nomatch none.symm.trans isNext⟩
  · rcases attempts_or_takes running 3 with ⟨delay, soon, goesOn, isNext⟩ | ⟨row, three, takes⟩
    · refine ⟨delay, Nat.le_of_lt_succ soon, goesOn, isNext, ?_⟩
      rw [turn_running goesOn, cycle_of_none isNext]
    · have two := takes.length_le_two
      rw [three] at two
      exact absurd two (by decide)

/-- A program in U-mode. The external interrupt of its supervisor is enabled and delegated, the
timer of M-mode is enabled. -/
def timedProgram : Machine where
  hart :=
    { Hart.initial ⟨0, 0⟩ with
      privilege := .user
      interrupts := .ofWords 0x200 0 0x280 }
  bus := .empty

/-- The hart of the program as it enters its supervisor. -/
def timedHandler : Hart :=
  ((timedProgram.withPending 0x200).hart.enterTrap (.interrupt .supervisorExternal)).value

/-- The program is left for its supervisor. There the timer comes before the first instruction of
the handler, which is the most that can happen. -/
theorem timedProgram_takes_two :
    TakesInARow [0x200, 0x280] timedProgram ∧ ([0x200, 0x280] : List Word).length ≤ 2 ∧
      (timedHandler.withPending 0x280).nextInterrupt = some .machineTimer ∧
      timedHandler.privilege <
        ((timedHandler.withPending 0x280).enterTrap (.interrupt .machineTimer)).value.privilege ∧
      timedProgram.hart.halted = false ∧
      ∃ delay ≤ 2, (afterTurns delay timedProgram).turn =
        (tick.outcome (afterTurns delay timedProgram)).2 := by
  obtain ⟨handlers, rows, attempts⟩ := handlers_start
  have takes : TakesInARow [0x200, 0x280] timedProgram :=
    ⟨rfl, ⟨.supervisorExternal, by decide⟩, rfl, ⟨.machineTimer, by decide⟩, trivial⟩
  have isNext : (timedHandler.withPending 0x280).nextInterrupt = some .machineTimer := by decide
  have leadsAbove := (handlers _ _ _).2 _ isNext
  obtain ⟨delay, few, -, -, attempted⟩ := attempts timedProgram rfl
  exact ⟨takes, rows _ _ takes, isNext, leadsAbove, rfl, delay, few, attempted⟩

end Machine

end Rv32
