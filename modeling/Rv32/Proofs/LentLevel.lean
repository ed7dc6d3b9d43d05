import Rv32.Proofs.DrivenInterrupts
import Rv32.Proofs.PrivilegeIntegrity
import Rv32.Proofs.WakeUp

/-!
# Only M-mode lends its loads and stores another level

While `mprv` is set, loads and stores are made in the name of the level in `mpp`. That is meant for
M-mode alone. `Hart.LendsAbove` is the invariant: the bit is set in M-mode only. It holds because
below M-mode nothing can set the bit, and because everything that leads below M-mode clears it.

So below M-mode an access is made in the name of the level that the hart runs at. An access may use
a translation that was cached before; `Machine.FilledAt` says that this was made in the name of the
same level, because a change of level empties the caches. `Machine.lent_level_confined` puts both
together for all sessions in which the host leaves the control and status registers alone.
-/

namespace Rv32

namespace Hart

/-- Another level is lent to loads and stores in M-mode only. -/
def LendsAbove (hart : Hart) : Prop :=
  hart.status.mprv = true → hart.privilege = .machine

theorem LendsAbove.of_clear {hart : Hart} (clear : hart.status.mprv = false) :
    hart.LendsAbove := by
  intro set
  rw [clear] at set
  cases set

/-- Below M-mode nothing is lent. -/
theorem LendsAbove.clear {hart : Hart} (lends : hart.LendsAbove)
    (below : hart.privilege ≠ .machine) : hart.status.mprv = false :=
  Bool.eq_false_iff.2 fun set => below (lends set)

/-- Where nothing is lent, accesses are made in the name of the level of the hart. -/
theorem LendsAbove.effectiveLevel {hart : Hart} (lends : hart.LendsAbove)
    (below : hart.privilege ≠ .machine) (kind : AccessKind) :
    Machine.effectiveLevel hart kind = hart.privilege := by
  unfold Machine.effectiveLevel
  cases kind <;> simp [lends.clear below]

theorem LendsAbove.access {before after : Hart} (lends : before.LendsAbove)
    (same : before.EqModAccess after) : after.LendsAbove := by
  obtain ⟨tlb, reservation, rfl⟩ := same
  exact lends

/-- From one hart to the other the level stayed the same, or the caches were emptied. -/
def KeepsLevel (before after : Hart) : Prop :=
  after.privilege = before.privilege ∨ after.tlb = .empty

/-! ## Instructions that complete -/

/-- In M-mode, an instruction that completes stays there or clears the bit. -/
theorem Retires.lendsAbove_of_machine {before after : Hart} {instruction : Instruction}
    (retires : before.Retires instruction after) (top : before.privilege = .machine) :
    after.LendsAbove := by
  cases retires with
  | ordinary plain same =>
      obtain ⟨registers, tlb, reservation, rfl⟩ := same
      exact fun _ => top
  | @csr _ _ register writes _ _ _ value isCsr allowed found =>
      cases writes with
      | false => exact fun _ => top
      | true => exact fun _ => (before.privilege_writeCsr register value).trans top
  | sret allowed =>
      rw [value_returnFromSupervisor]
      exact .of_clear rfl
  | mret machine =>
      rw [value_returnFromMachine]
      intro set
      obtain ⟨-, stays⟩ := Bool.and_eq_true_iff.1 set
      exact of_decide_eq_true stays
  | wfi halted allowed => exact fun _ => top
  | fence allowed => exact fun _ => top

theorem Retires.lendsAbove {before after : Hart} {instruction : Instruction}
    (retires : before.Retires instruction after) (lends : before.LendsAbove) :
    after.LendsAbove := by
  by_cases top : before.privilege = .machine
  · exact retires.lendsAbove_of_machine top
  · rcases (retires.confined top).mprv with kept | clear
    · exact .of_clear (kept.trans (lends.clear top))
    · exact .of_clear clear

theorem Retires.keepsLevel {before after : Hart} {instruction : Instruction}
    (retires : before.Retires instruction after) : before.KeepsLevel after := by
  unfold KeepsLevel
  cases retires with
  | ordinary plain same =>
      obtain ⟨registers, tlb, reservation, rfl⟩ := same
      exact .inl rfl
  | @csr _ _ register writes _ _ _ value isCsr allowed found =>
      cases writes with
      | false => exact .inl rfl
      | true => exact .inl (before.privilege_writeCsr register value)
  | sret allowed =>
      rw [value_returnFromSupervisor]
      by_cases stays : before.status.sppLevel = before.privilege
      · exact .inl stays
      · exact .inr (if_neg fun both => stays both.1)
  | mret machine =>
      rw [value_returnFromMachine]
      by_cases stays : before.status.mpp = before.privilege
      · exact .inl stays
      · exact .inr (if_neg fun both => stays both.1)
  | wfi halted allowed => exact .inl rfl
  | fence allowed => exact .inl rfl

/-! ## Traps -/

/-- A trap leads into M-mode, or it was taken below and finds the bit clear. -/
theorem LendsAbove.enterTrap {hart : Hart} (lends : hart.LendsAbove) (cause : Cause) :
    (hart.enterTrap cause).value.LendsAbove := by
  rcases handled : hart.delegates cause with _ | _
  · rw [value_enterTrap_machine handled]
    exact fun _ => rfl
  · rw [value_enterTrap_supervisor handled]
    exact .of_clear (lends.clear (privilege_ne_machine_of_delegates handled))

theorem keepsLevel_enterTrap (hart : Hart) (cause : Cause) :
    hart.KeepsLevel (hart.enterTrap cause).value := by
  unfold KeepsLevel
  rcases handled : hart.delegates cause with _ | _
  · rw [value_enterTrap_machine handled]
    by_cases stays : Privilege.machine = hart.privilege
    · exact .inl stays
    · exact .inr (if_neg stays)
  · rw [value_enterTrap_supervisor handled]
    by_cases stays : Privilege.supervisor = hart.privilege
    · exact .inl stays
    · exact .inr (if_neg stays)

/-- What happens behind an access is all that counts. -/
theorem KeepsLevel.after_access {before middle after : Hart} (keeps : middle.KeepsLevel after)
    (same : before.EqModAccess middle) : before.KeepsLevel after := by
  obtain ⟨tlb, reservation, rfl⟩ := same
  exact keeps

end Hart

/-! ## Turns -/

namespace Machine

variable {machine after : Machine} {cost : Cost}

theorem Turns.lendsAbove (turn : machine.Turns cost after) (lends : machine.hart.LendsAbove) :
    after.hart.LendsAbove := by
  cases turn with
  | interrupted pending => exact lends.enterTrap _
  | completed none ran =>
      obtain ⟨instruction, fetched, -, cached, retires⟩ := executeNext_retires ran
      have counted : machine.counted.hart.LendsAbove := lends
      exact retires.lendsAbove (counted.access cached.access)
  | failed none ran =>
      have counted : machine.counted.hart.LendsAbove := lends
      exact (counted.access (executeNext_error_hart ran).1).enterTrap _

/-- The level changes at the end of a turn if at all, and what was cached before is lost then. -/
theorem Turns.keepsLevel (turn : machine.Turns cost after) :
    machine.hart.KeepsLevel after.hart := by
  cases turn with
  | interrupted pending => exact machine.hart.keepsLevel_enterTrap _
  | completed none ran =>
      obtain ⟨instruction, fetched, -, cached, retires⟩ := executeNext_retires ran
      have keeps := retires.keepsLevel.after_access cached.access
      exact keeps
  | @failed ended raised none ran =>
      have keeps := (ended.hart.keepsLevel_enterTrap (.exception raised)).after_access
        (executeNext_error_hart ran).1
      exact keeps

end Machine

/-! ## Calls of the host -/

namespace HostCall

variable {machine : Machine}

theorem lendsAbove_apply (call : HostCall) (plain : call.setsControl = false)
    (stands : call.runs = false) (lends : machine.hart.LendsAbove) :
    (call.apply machine).hart.LendsAbove := by
  cases call with
  | serve request =>
      cases request with
      | step cycles => cases stands
      | act action =>
          cases action with
          | raiseInterrupts mask => exact lends
          | lowerInterrupts mask => exact lends
          | writeCsr address value => cases plain
          | reset => exact fun _ => rfl
          | resetHard => exact fun _ => rfl
          | restore snapshot => cases plain
          | attach range device =>
              unfold apply Request.serve HostAction.apply
              dsimp only
              split <;> exact lends
  | _ => exact lends

theorem keepsLevel_apply (call : HostCall) (plain : call.setsControl = false)
    (stands : call.runs = false) : machine.hart.KeepsLevel (call.apply machine).hart := by
  cases call with
  | serve request =>
      cases request with
      | step cycles => cases stands
      | act action =>
          cases action with
          | raiseInterrupts mask => exact .inl rfl
          | lowerInterrupts mask => exact .inl rfl
          | writeCsr address value => cases plain
          | reset => exact .inr rfl
          | resetHard => exact .inr rfl
          | restore snapshot => cases plain
          | attach range device =>
              unfold apply Request.serve HostAction.apply
              dsimp only
              split <;> exact .inl rfl
  | _ => exact .inl rfl

end HostCall

/-! ## Whole sessions -/

namespace Machine

/-- What happens to a machine from one state between turns to the next: a turn, the passing of time
while the hart waits, or a call of the host that runs nothing and puts nothing into control and
status registers. -/
inductive Moves (machine : Machine) : Machine → Prop
  | turn (running : machine.hart.halted = false) : machine.Moves (cycle.outcome machine).2
  | idle (cycles : Nat) : machine.Moves (machine.idle cycles)
  | call (call : HostCall) (plain : call.setsControl = false) (stands : call.runs = false) :
      machine.Moves (call.apply machine)

/-- Since the cache for a kind of access was empty, all such accesses were made in the name of one
level. -/
inductive FilledAt (level : Privilege) (kind : AccessKind) : Machine → Prop
  | emptied {machine : Machine} (empty : machine.hart.tlb.table kind = .empty)
      (now : effectiveLevel machine.hart kind = level) : FilledAt level kind machine
  | moved {before after : Machine} (filled : FilledAt level kind before)
      (moves : before.Moves after) (now : effectiveLevel after.hart kind = level) :
      FilledAt level kind after

/-- Another level is lent in M-mode only, and below M-mode all that is cached was made in the name
of the level that the hart runs at. -/
structure LendsSafely (machine : Machine) : Prop where
  above : machine.hart.LendsAbove
  filled : machine.hart.privilege ≠ .machine →
    ∀ kind, machine.FilledAt machine.hart.privilege kind

theorem LendsSafely.initial (config : HartConfig) (bus : Bus) :
    (Machine.initial config bus).LendsSafely :=
  ⟨fun _ => rfl, fun below => absurd rfl below⟩

theorem LendsSafely.moves {before after : Machine} (safe : before.LendsSafely)
    (moves : before.Moves after) : after.LendsSafely := by
  have above : after.hart.LendsAbove := by
    cases moves with
    | turn running => exact (cycle_turns before).lendsAbove safe.above
    | idle cycles => exact safe.above
    | call call plain stands => exact call.lendsAbove_apply plain stands safe.above
  have keeps : before.hart.KeepsLevel after.hart := by
    cases moves with
    | turn running => exact (cycle_turns before).keepsLevel
    | idle cycles => exact .inl rfl
    | call call plain stands => exact call.keepsLevel_apply plain stands
  refine ⟨above, fun below kind => ?_⟩
  have now := above.effectiveLevel below kind
  rcases keeps with same | emptied
  · rw [same] at below now ⊢
    exact .moved (safe.filled below kind) moves now
  · refine .emptied ?_ now
    rw [emptied, Tlb.table_empty]

theorem LendsSafely.afterTurns {machine : Machine} (safe : machine.LendsSafely) (turns : Nat) :
    (Machine.afterTurns turns machine).LendsSafely :=
  afterTurns_keeps LendsSafely (fun _ safe running => safe.moves (.turn running)) safe turns

theorem LendsSafely.apply {machine : Machine} (safe : machine.LendsSafely) (call : HostCall)
    (plain : call.setsControl = false) : (call.apply machine).LendsSafely := by
  cases stands : call.runs with
  | false => exact safe.moves (.call call plain stands)
  | true =>
      obtain ⟨cycles, rfl⟩ : ∃ cycles, call = .serve (.step cycles) := by
        cases call with
        | serve request =>
            cases request with
            | step cycles => exact ⟨cycles, rfl⟩
            | act action => cases stands
        | _ => cases stands
      exact run_keeps LendsSafely (fun _ safe running => safe.moves (.turn running))
        (fun _ cycles safe => safe.moves (.idle cycles)) safe cycles

/-- Lending a level is confined to M-mode. In every session that starts with a hart in its initial
state and in which the host puts nothing into control and status registers, and after any number of
turns of the run that comes next: (1) `mprv` is set in M-mode only; and (2) below M-mode every
access of the next turn is translated in the name of the level that the hart runs at, and so was
everything that is cached for it. -/
theorem lent_level_confined (config : HartConfig) (bus : Bus) {calls : List HostCall}
    (plain : ∀ call ∈ calls, call.setsControl = false) (turns : Nat) :
    let machine := afterTurns turns (session calls (initial config bus)).2
    (machine.hart.status.mprv = true → machine.hart.privilege = .machine) ∧
      (machine.hart.privilege ≠ .machine →
        ∀ kind,
          (∀ raw fetched, fetch.outcome machine.counted = (.ok raw, fetched) →
            effectiveLevel fetched.hart kind = machine.hart.privilege) ∧
          machine.FilledAt machine.hart.privilege kind) := by
  intro machine
  have safe : machine.LendsSafely := by
    refine LendsSafely.afterTurns ?_ turns
    exact session_keeps LendsSafely (fun call _ plain safe => safe.apply call plain) plain
      (.initial config bus)
  refine ⟨safe.above, fun below kind => ⟨fun raw fetched wasFetched => ?_, safe.filled below kind⟩⟩
  have cached := fetch_hartCached machine.counted
  rw [wasFetched] at cached
  have level : fetched.hart.privilege = machine.counted.hart.privilege :=
    cached.apply fun _ _ => rfl
  have counted : machine.counted.hart.LendsAbove := safe.above
  exact ((counted.access cached.access).effectiveLevel (level.symm ▸ below) kind).trans level

/-- A program that sets `mprv` in M-mode and then returns to U-mode. -/
def lendingProgram : Bus :=
  .allMemory [0xB7, 0x00, 0x02, 0x00, 0x73, 0xA0, 0x00, 0x30, 0x73, 0x00, 0x20, 0x30]

/-- The machine that is about to return. -/
def lender : Machine := (session [.serve (.step 2)] (initial ⟨0, 0⟩ lendingProgram)).2

/-- The return clears the bit, and from then on accesses are made in the name of U-mode. -/
theorem lender_returns :
    lender.hart.status.mprv = true ∧ lender.hart.privilege = .machine ∧
      (afterTurns 1 lender).hart.privilege = .user ∧
      (afterTurns 1 lender).hart.status.mprv = false ∧
      (afterTurns 1 lender).FilledAt .user .load := by
  have plain : ∀ call ∈ [HostCall.serve (.step 2)], call.setsControl = false := by decide
  have set : lender.hart.status.mprv = true := by decide +kernel
  have user : (afterTurns 1 lender).hart.privilege = .user := by decide +kernel
  unfold lender at set user ⊢
  obtain ⟨lends, -⟩ := lent_level_confined ⟨0, 0⟩ lendingProgram plain 0
  obtain ⟨stillLends, safe⟩ := lent_level_confined ⟨0, 0⟩ lendingProgram plain 1
  rw [user] at stillLends safe
  have clear := Bool.eq_false_iff.2 fun still => nomatch stillLends still
  exact ⟨set, lends set, user, clear, (safe nofun .load).2⟩

end Machine

end Rv32
