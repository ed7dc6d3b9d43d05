import Rv32.Proofs.CsrAccess
import Rv32.Proofs.Retire
import Rv32.Proofs.TrapForms

/-!
# Privilege integrity

What one turn can do to a hart that runs below M-mode. `Machine.privilege_integrity` puts together
three facts: as long as no trap leads into M-mode, nothing that belongs to M-mode changes; code in
U-mode changes no control and status register except by counting cycles; and the only way to a
higher level is a trap, which enters the handler of that level and records where it came from.
-/

namespace Rv32

namespace Hart

/-! ## Instructions that complete -/

/-- In U-mode an instruction that completes reaches registers, caches and the reservation only. -/
theorem Retires.user {before after : Hart} {instruction : Instruction}
    (retires : before.Retires instruction after) (user : before.privilege = .user) :
    before.EqModProgram after := by
  have below : before.privilege ≠ .machine := by
    rw [user]
    exact nofun
  have refused : ∀ trapped, before.allowsSupervisor trapped ≠ true := by
    unfold allowsSupervisor
    rw [user]
    exact nofun
  cases retires with
  | ordinary plain same => exact same
  | @csr _ _ register writes _ _ _ value isCsr allowed found =>
      cases writes with
      | false => exact .setX_advance ..
      | true =>
          have level := (writable_of_checkCsr allowed found below).1
          rw [user] at level
          cases level
  | sret allowed => exact absurd allowed (refused _)
  | mret machine => exact absurd machine below
  | wfi halted allowed => exact absurd allowed (refused _)
  | fence allowed => exact absurd allowed (refused _)

/-- Below M-mode an instruction that completes is confined. -/
theorem Retires.confined {before after : Hart} {instruction : Instruction}
    (retires : before.Retires instruction after) (below : before.privilege ≠ .machine) :
    before.Confined after := by
  cases retires with
  | ordinary plain same =>
      obtain ⟨registers, tlb, reservation, rfl⟩ := same
      exact ⟨rfl, .inl rfl, rfl, fun _ => rfl⟩
  | @csr _ _ register writes _ _ _ value isCsr allowed found =>
      cases writes with
      | false => exact ⟨rfl, .inl rfl, rfl, fun _ => rfl⟩
      | true =>
          obtain ⟨level, supervisor, unlocked⟩ := writable_of_checkCsr allowed found below
          have confined := confined_writeCsr level supervisor unlocked value
          exact ⟨confined.machineState, confined.mprv, confined.mcycle, confined.satp⟩
  | sret allowed =>
      rw [value_returnFromSupervisor]
      exact ⟨rfl, .inr rfl, rfl, fun _ => rfl⟩
  | mret machine => exact absurd machine below
  | wfi halted allowed => exact ⟨rfl, .inl rfl, rfl, fun _ => rfl⟩
  | fence allowed => exact ⟨rfl, .inl rfl, rfl, fun _ => rfl⟩

/-- Below M-mode no instruction that completes raises the level. -/
theorem Retires.not_lt {before after : Hart} {instruction : Instruction}
    (retires : before.Retires instruction after) (below : before.privilege ≠ .machine) :
    ¬ before.privilege < after.privilege := by
  cases retires with
  | ordinary plain same =>
      obtain ⟨registers, tlb, reservation, rfl⟩ := same
      exact BitVec.lt_irrefl _
  | @csr _ _ register writes _ _ _ value isCsr allowed found =>
      cases writes with
      | false => exact BitVec.lt_irrefl _
      | true =>
          intro rose
          have same := privilege_writeCsr before register value
          exact BitVec.lt_irrefl _ (same ▸ rose)
  | sret allowed =>
      rw [value_returnFromSupervisor]
      unfold allowsSupervisor at allowed
      dsimp only
      cases level : before.privilege with
      | user =>
          rw [level] at allowed
          cases allowed
      | supervisor =>
          unfold Status.sppLevel
          cases before.status.spp <;> decide
      | machine => exact absurd level below
  | mret machine => exact absurd machine below
  | wfi halted allowed => exact BitVec.lt_irrefl _
  | fence allowed => exact BitVec.lt_irrefl _

/-! ## Traps -/

/-- The registers that a trap to a level writes. -/
def trapRecord (hart : Hart) (level : Privilege) : TrapRecord :=
  match level with
  | .machine => hart.machineTrap
  | _ => hart.supervisorTrap

/-- The level that a return from a level leads to. -/
def previousLevel (hart : Hart) (level : Privilege) : Privilege :=
  match level with
  | .machine => hart.status.mpp
  | _ => hart.status.sppLevel

/-- The second hart is in a handler for a trap that the first one took: it runs where the vector of
its level says, and the record of its level says what happened and where. -/
structure Entered (before : Hart) (cause : Cause) (after : Hart) : Prop where
  pc : after.pc = (before.setup.vector after.privilege).handler cause
  previous : after.previousLevel after.privilege = before.privilege
  epc : (after.trapRecord after.privilege).epc.bits = before.pc &&& ~~~1
  code : (after.trapRecord after.privilege).cause = cause.word
  value : (after.trapRecord after.privilege).tval = cause.value

theorem entered_enterTrap (hart : Hart) (cause : Cause) :
    hart.Entered cause (hart.enterTrap cause).value := by
  rcases handled : hart.delegates cause with _ | _
  · rw [value_enterTrap_machine handled]
    exact ⟨rfl, rfl, rfl, rfl, rfl⟩
  · rw [value_enterTrap_supervisor handled]
    refine ⟨rfl, ?_, rfl, rfl, rfl⟩
    have below := privilege_ne_machine_of_delegates handled
    cases level : hart.privilege with
    | user => rfl
    | supervisor => rfl
    | machine => exact absurd level below

/-- A trap that does not lead into M-mode is confined, apart from the cycle it takes. -/
theorem confined_enterTrap {hart : Hart} {cause : Cause}
    (below : (hart.enterTrap cause).value.privilege ≠ .machine) :
    { hart with mcycle := hart.mcycle + 1 }.Confined (hart.enterTrap cause).value := by
  rcases handled : hart.delegates cause with _ | _
  · rw [value_enterTrap_machine handled] at below
    exact absurd rfl below
  · rw [value_enterTrap_supervisor handled]
    exact ⟨rfl, .inl rfl, rfl, fun _ => rfl⟩

section AfterAccess

variable {before ended after : Hart}

/-- A trap after an access that failed, which took a cycle. -/
theorem Confined.after_access (confined : { ended with mcycle := ended.mcycle + 1 }.Confined after)
    (kept : { before with mcycle := before.mcycle + 1 }.EqModAccess ended) :
    { before with mcycle := before.mcycle + 2 }.Confined after := by
  obtain ⟨tlb, reservation, rfl⟩ := kept
  have cycles : before.mcycle + 1 + 1 = before.mcycle + 2 := BitVec.add_assoc ..
  have mcycle : after.mcycle = before.mcycle + 2 := confined.mcycle.trans cycles
  exact ⟨confined.machineState, confined.mprv, mcycle, confined.satp⟩

theorem Entered.after_access {cause : Cause} (entered : ended.Entered cause after)
    (kept : { before with mcycle := before.mcycle + 1 }.EqModAccess ended) :
    before.Entered cause after := by
  obtain ⟨tlb, reservation, rfl⟩ := kept
  exact ⟨entered.pc, entered.previous, entered.epc, entered.code, entered.value⟩

end AfterAccess

theorem privilege_enterTrap_ne_user (hart : Hart) (cause : Cause) :
    (hart.enterTrap cause).value.privilege ≠ .user := by
  rcases handled : hart.delegates cause with _ | _
  · rw [value_enterTrap_machine handled]
    exact nofun
  · rw [value_enterTrap_supervisor handled]
    exact nofun

/-! ## Registers that show the number of cycles -/

/-- Whether a register shows the number of cycles. The clock does if the host has attached none. -/
def showsCycles (hart : Hart) : Csr → Bool
  | .mcycle | .minstret | .mcycleh | .minstreth | .cycle | .instret | .cycleh | .instreth => true
  | .time | .timeh => hart.clock.isNone
  | _ => false

theorem readCsr_of_eqModProgram {first second : Hart} (same : first.EqModProgram second)
    (register : Csr) : second.readCsr register = first.readCsr register := by
  obtain ⟨registers, tlb, reservation, rfl⟩ := same
  cases register <;> rfl

theorem time_mcycle (hart : Hart) (mcycle : DoubleWord) (attached : hart.clock.isNone = false) :
    { hart with mcycle := mcycle }.time = hart.time := by
  unfold time
  dsimp only
  cases clock : hart.clock with
  | none =>
      rw [clock] at attached
      cases attached
  | some time => rfl

theorem readCsr_mcycle (hart : Hart) (mcycle : DoubleWord) {register : Csr}
    (steady : hart.showsCycles register = false) :
    { hart with mcycle := mcycle }.readCsr register = hart.readCsr register := by
  cases register with
  | time => exact congrArg (BitVec.setWidth 32) (hart.time_mcycle mcycle steady)
  | timeh => exact congrArg (BitVec.extractLsb' 32 32) (hart.time_mcycle mcycle steady)
  | mcycle | minstret | mcycleh | minstreth | cycle | instret | cycleh | instreth => cases steady
  | _ => rfl

end Hart

namespace Machine

/-- The cause of the trap that the next turn enters, if it enters one. -/
def trapCause (machine : Machine) : Option Cause :=
  match machine.hart.nextInterrupt with
  | some interrupt => some (.interrupt interrupt)
  | none =>
    match (executeNext.outcome machine.counted).1 with
    | .ok _ => none
    | .error raised => some (.exception raised)

namespace Turns

variable {machine after : Machine} {cost : Cost}

/-- A turn that stays below M-mode is confined, apart from the cycles it takes. -/
theorem confined (turn : machine.Turns cost after) (below : machine.hart.privilege ≠ .machine)
    (stays : after.hart.privilege ≠ .machine) :
    ∃ cycles : DoubleWord, (cycles = 1 ∨ cycles = 2) ∧
      { machine.hart with mcycle := machine.hart.mcycle + cycles }.Confined after.hart := by
  cases turn with
  | interrupted pending => exact ⟨1, .inl rfl, Hart.confined_enterTrap stays⟩
  | completed none ran =>
      obtain ⟨instruction, fetched, isNext, ⟨tlb, rfl⟩, retires⟩ := executeNext_retires ran
      have confined := retires.confined below
      exact ⟨1, .inl rfl, confined.machineState, confined.mprv, confined.mcycle, confined.satp⟩
  | @failed ended raised none ran =>
      have kept := (executeNext_error_hart ran).1
      exact ⟨2, .inr rfl, (Hart.confined_enterTrap stays).after_access kept⟩

/-- A turn that starts and ends in U-mode completes an instruction, which only counts a cycle. -/
theorem readCsr (turn : machine.Turns cost after) (user : machine.hart.privilege = .user)
    (stays : after.hart.privilege = .user) {register : Csr}
    (steady : machine.hart.showsCycles register = false) :
    after.hart.readCsr register = machine.hart.readCsr register := by
  cases turn with
  | interrupted pending => exact absurd stays (Hart.privilege_enterTrap_ne_user _ _)
  | completed none ran =>
      obtain ⟨instruction, fetched, isNext, cached, retires⟩ := executeNext_retires ran
      have fetchedUser : fetched.privilege = .user :=
        (cached.apply (f := Hart.privilege) fun _ _ => rfl).trans user
      have same := cached.access.program.trans (retires.user fetchedUser)
      exact (Hart.readCsr_of_eqModProgram same register).trans
        (machine.hart.readCsr_mcycle _ steady)
  | failed none ran => exact absurd stays (Hart.privilege_enterTrap_ne_user _ _)

/-- A turn that raises the level enters a trap. -/
theorem entered (turn : machine.Turns cost after) (below : machine.hart.privilege ≠ .machine)
    (rose : machine.hart.privilege < after.hart.privilege) :
    ∃ cause, machine.trapCause = some cause ∧ machine.hart.Entered cause after.hart := by
  cases turn with
  | @interrupted interrupt pending =>
      refine ⟨.interrupt interrupt, ?_, Hart.entered_enterTrap ..⟩
      unfold trapCause
      rw [pending]
  | completed none ran =>
      obtain ⟨instruction, fetched, isNext, ⟨tlb, rfl⟩, retires⟩ := executeNext_retires ran
      exact absurd rose (retires.not_lt below)
  | @failed ended raised none ran =>
      refine ⟨.exception raised, ?_, ?_⟩
      · unfold trapCause
        rw [none]
        dsimp only
        rw [ran]
      · have kept := (executeNext_error_hart ran).1
        exact (Hart.entered_enterTrap ended.hart _).after_access kept

end Turns

/-- A turn of a hart below M-mode. (1) If the hart stays below M-mode, then what belongs to M-mode
stays, no level is lent, one or two cycles pass, and the translation register changes only if S-mode
may change it. (2) If it stays in U-mode, then no register changes but those that show the number of
cycles. (3) If its level rises, then it has entered the handler of a trap. -/
theorem privilege_integrity (machine : Machine) (below : machine.hart.privilege ≠ .machine) :
    let before := machine.hart
    let after := (cycle.outcome machine).2.hart
    (after.privilege ≠ .machine →
      after.machineState = before.machineState ∧
      (after.status.mprv = before.status.mprv ∨ after.status.mprv = false) ∧
      (after.mcycle = before.mcycle + 1 ∨ after.mcycle = before.mcycle + 2) ∧
      (before.privilege = .user ∨ before.status.tvm = true → after.satp = before.satp)) ∧
    (before.privilege = .user → after.privilege = .user →
      ∀ register, before.showsCycles register = false →
        after.readCsr register = before.readCsr register) ∧
    (before.privilege < after.privilege →
      ∃ cause, machine.trapCause = some cause ∧ before.Entered cause after) := by
  intro before after
  have turn := cycle_turns machine
  refine ⟨fun stays => ?_, fun user stays register => turn.readCsr user stays, turn.entered below⟩
  obtain ⟨cycles, one | two, confined⟩ := turn.confined below stays
  · subst one
    exact ⟨confined.machineState, confined.mprv, .inl confined.mcycle, confined.satp⟩
  · subst two
    exact ⟨confined.machineState, confined.mprv, .inr confined.mcycle, confined.satp⟩

/-- A machine in U-mode without memory, which cannot fetch anything. -/
def unmappedUser : Machine := ⟨{ Hart.initial .standard with privilege := .user }, .empty⟩

/-- The fault in U-mode leads to the handler of M-mode. -/
theorem unmappedUser_entered :
    unmappedUser.hart.privilege ≠ .machine ∧
      ∃ cause, unmappedUser.trapCause = some cause ∧
        unmappedUser.hart.Entered cause (cycle.outcome unmappedUser).2.hart := by
  have below : unmappedUser.hart.privilege ≠ .machine := nofun
  have rose : unmappedUser.hart.privilege < (cycle.outcome unmappedUser).2.hart.privilege := by
    decide +kernel
  exact ⟨below, (privilege_integrity unmappedUser below).2.2 rose⟩

end Machine

end Rv32
