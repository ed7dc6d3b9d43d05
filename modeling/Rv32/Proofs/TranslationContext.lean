import Rv32.Proofs.Retire
import Rv32.Proofs.TrapForms
import Rv32.Snapshot

/-!
# Cached translations and the context they were made in

How an access is translated depends on its `TranslationContext`: the translation register, two bits
of the status register, and the level in whose name it is made. `Operation.Flushes` says that an
operation which changes the context of a kind of access leaves nothing in the cache for that kind.

It holds with one exception, `Operation.SwapsLentLevel`. While M-mode lends loads and stores the
level in `mpp`, entering a trap from M-mode and returning to M-mode overwrite `mpp`; the hart stays
in M-mode, so nothing is flushed. `Operation.flushes_iff` says that these are the only failures.
-/

namespace Rv32

/-- What decides how accesses of one kind are translated. -/
structure TranslationContext where
  translates : Bool
  rootPage : BitVec 22
  sum : Bool
  mxr : Bool
  level : Privilege
deriving DecidableEq

namespace Hart

/-- The context in which accesses of a kind are translated now. -/
def translationContext (hart : Hart) (kind : AccessKind) : TranslationContext where
  translates := hart.satp.translates
  rootPage := hart.satp.rootPage
  sum := hart.status.sum
  mxr := hart.status.mxr
  level := Machine.effectiveLevel hart kind

/-- From one hart to the other the caches were emptied, or they and all contexts stayed the same. -/
def Refreshed (before after : Hart) : Prop :=
  after.tlb = .empty ∨
    after.tlb = before.tlb ∧
      ∀ kind, after.translationContext kind = before.translationContext kind

theorem EqModProgram.translationContext {first second : Hart} (same : first.EqModProgram second)
    (kind : AccessKind) : second.translationContext kind = first.translationContext kind := by
  obtain ⟨registers, tlb, reservation, rfl⟩ := same
  rfl

namespace Refreshed

variable {before middle after : Hart}

theorem refl (hart : Hart) : hart.Refreshed hart := .inr ⟨rfl, fun _ => rfl⟩

theorem trans (left : before.Refreshed middle) (right : middle.Refreshed after) :
    before.Refreshed after := by
  rcases right with emptied | ⟨kept, same⟩
  · exact .inl emptied
  · rcases left with emptied | ⟨kept', same'⟩
    · exact .inl (kept.trans emptied)
    · exact .inr ⟨kept.trans kept', fun kind => (same kind).trans (same' kind)⟩

theorem table_eq_empty (refreshed : before.Refreshed after) {kind : AccessKind}
    (changed : after.translationContext kind ≠ before.translationContext kind) :
    after.tlb.table kind = .empty := by
  rcases refreshed with emptied | ⟨-, same⟩
  · rw [emptied, Tlb.table_empty]
  · exact absurd (same kind) changed

end Refreshed

theorem translationContext_of_status {before after : Hart} (satp : after.satp = before.satp)
    (privilege : after.privilege = before.privilege)
    (same : before.status.translationDiffers after.status = false) (kind : AccessKind) :
    after.translationContext kind = before.translationContext kind := by
  simp only [Status.translationDiffers, Bool.or_eq_false_iff, Bool.and_eq_false_iff,
    bne_eq_false_iff_eq] at same
  obtain ⟨⟨⟨mprv, sum⟩, mxr⟩, mpp⟩ := same
  have level : Machine.effectiveLevel after kind = Machine.effectiveLevel before kind := by
    unfold Machine.effectiveLevel
    rw [privilege, ← mprv]
    rcases mpp with clear | mpp
    · rw [clear]
      rfl
    · rw [mpp]
  unfold translationContext
  rw [satp, sum, mxr, level]

/-! ## Control and status registers -/

theorem refreshed_writeStatus (hart : Hart) (value selected : Word) :
    hart.Refreshed (hart.writeStatus value selected).value := by
  unfold writeStatus
  dsimp only
  split
  · exact .inl rfl
  · rename_i kept
    exact .inr ⟨rfl, translationContext_of_status rfl rfl (Bool.eq_false_iff.2 kept)⟩

theorem refreshed_writeSatp (hart : Hart) (value : Word) :
    hart.Refreshed (hart.writeSatp value).value := by
  unfold writeSatp
  dsimp only
  split
  · exact .refl hart
  · exact .inl rfl

/-- A write that changes how addresses are translated empties the caches. -/
theorem refreshed_writeCsr (hart : Hart) (register : Csr) (value : Word) :
    hart.Refreshed (hart.writeCsr register value).value := by
  cases register with
  | sstatus => exact refreshed_writeStatus ..
  | mstatus => exact refreshed_writeStatus ..
  | satp => exact refreshed_writeSatp ..
  | _ => exact .inr ⟨rfl, fun _ => rfl⟩

/-! ## Traps and returns -/

/-- A trap refreshes the caches, unless it is taken in M-mode while that lends a level below. -/
theorem refreshed_enterTrap {hart : Hart} (cause : Cause)
    (lends : ¬ (hart.privilege = .machine ∧ hart.status.mprv = true ∧
      hart.status.mpp ≠ .machine)) :
    hart.Refreshed (hart.enterTrap cause).value := by
  rcases handled : hart.delegates cause with _ | _
  · rw [value_enterTrap_machine handled]
    by_cases stays : Privilege.machine = hart.privilege
    · refine .inr ⟨if_pos stays, fun kind => ?_⟩
      refine congrArg (TranslationContext.mk _ _ _ _) ?_
      have lent : hart.status.mprv = true → hart.status.mpp = .machine :=
        fun set => Decidable.not_not.1 fun below => lends ⟨stays.symm, set, below⟩
      unfold Machine.effectiveLevel Status.enterMachine
      rw [← stays]
      cases set : hart.status.mprv with
      | false => rfl
      | true => rw [lent set]
    · exact .inl (if_neg stays)
  · rw [value_enterTrap_supervisor handled]
    by_cases stays : Privilege.supervisor = hart.privilege
    · refine .inr ⟨if_pos stays, fun kind => ?_⟩
      refine congrArg (TranslationContext.mk _ _ _ _) ?_
      unfold Machine.effectiveLevel
      rw [← stays]
    · exact .inl (if_neg stays)

/-- A return from M-mode refreshes the caches, unless it leads to M-mode while that lends its own
level. -/
theorem refreshed_returnFromMachine {hart : Hart} (machine : hart.privilege = .machine)
    (lends : ¬ (hart.status.mprv = true ∧ hart.status.mpp = .machine)) :
    hart.Refreshed hart.returnFromMachine.value := by
  rw [value_returnFromMachine]
  by_cases stays : hart.status.mpp = hart.privilege
  · have clear : hart.status.mprv = false :=
      Bool.eq_false_iff.2 fun set => lends ⟨set, stays.trans machine⟩
    refine .inr ⟨if_pos ⟨stays, .inr clear⟩, fun kind => ?_⟩
    refine congrArg (TranslationContext.mk _ _ _ _) ?_
    unfold Machine.effectiveLevel
    rw [clear, stays]
    rfl
  · exact .inl (if_neg fun both => stays both.1)

/-- A return from S-mode refreshes the caches. -/
theorem refreshed_returnFromSupervisor (hart : Hart) :
    hart.Refreshed hart.returnFromSupervisor.value := by
  rw [value_returnFromSupervisor]
  by_cases kept : hart.status.sppLevel = hart.privilege ∧ hart.status.mprv = false
  · refine .inr ⟨if_pos kept, fun kind => ?_⟩
    refine congrArg (TranslationContext.mk _ _ _ _) ?_
    unfold Machine.effectiveLevel
    rw [kept.1, kept.2]
    rfl
  · exact .inl (if_neg kept)

/-! ## Swaps of the level that M-mode lends -/

/-- From one hart to the other the context of loads and stores changed, and what is cached for them
did not. -/
structure LeavesStale (before after : Hart) : Prop where
  data : ∀ kind, kind ≠ .fetch →
    after.translationContext kind ≠ before.translationContext kind
  fetch : after.translationContext .fetch = before.translationContext .fetch
  kept : ∀ kind, kind ≠ .fetch → after.tlb.table kind = before.tlb.table kind

theorem effectiveLevel_of_lent {hart : Hart} {kind : AccessKind} (lent : hart.status.mprv = true)
    (data : kind ≠ .fetch) : Machine.effectiveLevel hart kind = hart.status.mpp := by
  cases kind with
  | fetch => exact absurd rfl data
  | load => exact if_pos lent
  | store => exact if_pos lent

theorem translationContext_ne_of_mpp {before after : Hart} {kind : AccessKind}
    (lent : before.status.mprv = true) (lentAfter : after.status.mprv = true)
    (swapped : after.status.mpp ≠ before.status.mpp) (data : kind ≠ .fetch) :
    after.translationContext kind ≠ before.translationContext kind := by
  intro same
  have levels := congrArg TranslationContext.level same
  have mpp : after.status.mpp = before.status.mpp := by
    rw [← effectiveLevel_of_lent lent data, ← effectiveLevel_of_lent lentAfter data]
    exact levels
  exact swapped mpp

theorem leavesStale_enterTrap {hart : Hart} (cause : Cause) (top : hart.privilege = .machine)
    (lent : hart.status.mprv = true) (below : hart.status.mpp ≠ .machine) :
    hart.LeavesStale (hart.enterTrap cause).value := by
  have handled : hart.delegates cause = false :=
    Bool.eq_false_iff.2 fun delegated => privilege_ne_machine_of_delegates delegated top
  rw [value_enterTrap_machine handled]
  refine ⟨fun kind data => ?_, ?_, fun kind _ => ?_⟩
  · refine translationContext_ne_of_mpp lent lent ?_ data
    exact fun same => below (same.symm.trans top)
  · exact congrArg (TranslationContext.mk _ _ _ _) top.symm
  · exact congrArg (Tlb.table · kind) (if_pos top.symm)

theorem leavesStale_returnFromMachine {hart : Hart} (top : hart.privilege = .machine)
    (lent : hart.status.mprv = true) (stays : hart.status.mpp = .machine) :
    hart.LeavesStale hart.returnFromMachine.value := by
  rw [value_returnFromMachine]
  refine ⟨fun kind data => ?_, ?_, fun kind _ => ?_⟩
  · refine translationContext_ne_of_mpp lent ?_ ?_ data
    · dsimp only
      rw [lent, decide_eq_true stays]
      rfl
    · rw [stays]
      exact nofun
  · exact congrArg (TranslationContext.mk _ _ _ _) (stays.trans top.symm)
  · have kept : hart.status.mpp = hart.privilege := stays.trans top.symm
    exact congrArg (Tlb.table · kind) (if_pos ⟨kept, .inl stays⟩)

end Hart

namespace Machine

/-! ## Operations -/

/-- From one machine to the other only the cache for one kind of access changed. -/
def CachesOnly (kind : AccessKind) (before after : Machine) : Prop :=
  ∀ other, other ≠ kind → after.hart.tlb.table other = before.hart.tlb.table other

namespace CachesOnly

variable {kind : AccessKind}

theorem refl (machine : Machine) : CachesOnly kind machine machine := fun _ _ => rfl

theorem trans (first second third : Machine) (left : CachesOnly kind first second)
    (right : CachesOnly kind second third) : CachesOnly kind first third :=
  fun other different => (right other different).trans (left other different)

theorem of_hartKept {before after : Machine} (kept : before.HartKept after) :
    CachesOnly kind before after :=
  fun other _ => congrArg (fun hart => hart.tlb.table other) kept

end CachesOnly

theorem locate_cachesOnly (address : Word) (kind : AccessKind) :
    (locate address kind).Within (CachesOnly kind) :=
  locate_within .refl .trans (fun machine => .of_hartKept (translate_hartKept _ _ machine))
    fun _ _ _ _ _ different =>
      (Tlb.table_insert ..).trans (if_neg fun inserted => different inserted.1.symm)

/-- Fetching leaves the caches for loads and stores alone. -/
theorem fetch_cachesOnly : fetch.Within (CachesOnly .fetch) :=
  fetch_within .refl .trans (locate_cachesOnly · .fetch)
    fun _ region? _ machine => .of_hartKept (readLocated_hartKept _ region? _ machine)

end Machine

/-- What can happen to a machine: an instruction is executed up to its end or its exception, a trap
is entered, or the host writes a register, resets the hart or gives it another state. -/
inductive Operation where
  | instruction
  | trap (cause : Cause)
  | writeCsr (address : CsrAddress) (value : Word)
  | reset
  | resetHard
  | restore (snapshot : Snapshot)

namespace Operation

/-- The hart after an operation of the host. What is refused changes nothing. -/
def ofHost {ε : Type} (hart : Hart) (result : Except ε (Logged Hart)) : Hart :=
  match result with
  | .ok after => after.value
  | .error _ => hart

/-- The machine after an operation. -/
def apply (operation : Operation) (machine : Machine) : Machine :=
  match operation with
  | instruction => (Machine.executeNext.outcome machine).2
  | trap cause => machine.trapped cause
  | writeCsr address value =>
    { machine with hart := ofHost machine.hart (machine.hart.writeAddress address value) }
  | reset => { machine with hart := machine.hart.reset.value }
  | resetHard => { machine with hart := machine.hart.resetHard.value }
  | restore snapshot => { machine with hart := ofHost machine.hart (machine.hart.restore snapshot) }

/-- If the operation changes the context of a kind of access, it leaves nothing cached for it. -/
def Flushes (operation : Operation) (machine : Machine) (kind : AccessKind) : Prop :=
  (operation.apply machine).hart.translationContext kind ≠ machine.hart.translationContext kind →
    (operation.apply machine).hart.tlb.table kind = .empty

/-- The operation stays in M-mode and replaces the level that M-mode lends to loads and stores: a
trap puts M-mode in place of a lower level, and a return to M-mode puts U-mode in place of that. -/
def SwapsLentLevel (operation : Operation) (machine : Machine) : Prop :=
  machine.hart.privilege = .machine ∧ machine.hart.status.mprv = true ∧
    match operation with
    | trap _ => machine.hart.status.mpp ≠ .machine
    | instruction =>
      machine.hart.status.mpp = .machine ∧ machine.nextInstruction = some .mret
    | _ => False

/-! ## Which operations flush -/

theorem flushes_of_refreshed {operation : Operation} {machine : Machine}
    (refreshed : machine.hart.Refreshed (operation.apply machine).hart) (kind : AccessKind) :
    operation.Flushes machine kind :=
  fun changed => refreshed.table_eq_empty changed

theorem refreshed_ofHost {ε : Type} {hart : Hart} {result : Except ε (Logged Hart)}
    (refreshed : ∀ after, result = .ok after → hart.Refreshed after.value) :
    hart.Refreshed (ofHost hart result) := by
  cases result with
  | ok after => exact refreshed after rfl
  | error _ => exact .refl hart

theorem refreshed_writeAddress (hart : Hart) (address : CsrAddress) (value : Word) :
    hart.Refreshed (ofHost hart (hart.writeAddress address value)) := by
  refine refreshed_ofHost fun after written => ?_
  unfold Hart.writeAddress at written
  split at written
  · cases written
    exact Hart.refreshed_writeCsr ..
  · cases written

/-- A state given by the host is taken over with empty caches. -/
theorem refreshed_restore (hart : Hart) (snapshot : Snapshot) :
    hart.Refreshed (ofHost hart (hart.restore snapshot)) := by
  refine refreshed_ofHost fun after restored => ?_
  unfold Hart.restore at restored
  split at restored
  · cases restored
  · cases restored
  · cases restored
  · cases restored
    exact .inl rfl

/-- An instruction that retires refreshes the caches, unless it is a return that swaps the level
lent by M-mode. -/
theorem refreshed_retires {before after : Hart} {instruction : Instruction}
    (retires : before.Retires instruction after)
    (lends : ¬ (before.privilege = .machine ∧ before.status.mprv = true ∧
      before.status.mpp = .machine ∧ instruction = .mret)) (kind : AccessKind)
    (changed : after.translationContext kind ≠ before.translationContext kind) :
    after.tlb.table kind = .empty := by
  cases retires with
  | ordinary plain same => exact absurd (same.translationContext kind) changed
  | @csr _ _ register writes _ _ _ value isCsr allowed found =>
      cases writes with
      | false => exact absurd rfl changed
      | true => exact (Hart.refreshed_writeCsr before register value).table_eq_empty changed
  | sret allowed => exact (Hart.refreshed_returnFromSupervisor before).table_eq_empty changed
  | mret machine =>
      have kept : ¬ (before.status.mprv = true ∧ before.status.mpp = .machine) :=
        fun both => lends ⟨machine, both.1, both.2, rfl⟩
      exact (Hart.refreshed_returnFromMachine machine kept).table_eq_empty changed
  | wfi halted allowed => exact absurd rfl changed
  | fence allowed => exact Tlb.table_empty kind

theorem flushes_instruction {machine : Machine} (lends : ¬ instruction.SwapsLentLevel machine)
    (kind : AccessKind) : instruction.Flushes machine kind := by
  intro changed
  unfold apply at changed ⊢
  dsimp only at changed ⊢
  rcases ran : Machine.executeNext.outcome machine with ⟨raised | done, after⟩
  · rw [ran] at changed
    have same := (Machine.executeNext_error_hart ran).1.program.translationContext kind
    exact absurd same changed
  · rw [ran] at changed
    obtain ⟨ran', fetched, isNext, kept, retires⟩ := Machine.executeNext_retires ran
    rw [← kept.access.program.translationContext kind] at changed
    refine refreshed_retires retires (fun swaps => lends ?_) kind changed
    obtain ⟨tlb, rfl⟩ := kept
    obtain ⟨top, lent, stays, rfl⟩ := swaps
    exact ⟨top, lent, stays, isNext⟩

/-- Every operation flushes what it makes stale, unless it swaps the level lent by M-mode. -/
theorem flushes_of_not_swapsLentLevel {operation : Operation} {machine : Machine}
    (lends : ¬ operation.SwapsLentLevel machine) (kind : AccessKind) :
    operation.Flushes machine kind := by
  cases operation with
  | instruction => exact flushes_instruction lends kind
  | trap cause => exact flushes_of_refreshed (Hart.refreshed_enterTrap cause lends) kind
  | writeCsr address value => exact flushes_of_refreshed (refreshed_writeAddress ..) kind
  | reset => exact flushes_of_refreshed (.inl rfl) kind
  | resetHard => exact flushes_of_refreshed (.inl rfl) kind
  | restore snapshot => exact flushes_of_refreshed (refreshed_restore ..) kind

/-! ## Which operations do not -/

theorem apply_return {machine : Machine} (top : machine.hart.privilege = .machine)
    (isNext : machine.nextInstruction = some .mret) :
    ∃ fetched, Machine.CachesOnly .fetch machine fetched ∧ machine.HartCached fetched ∧
      (instruction.apply machine).hart = fetched.hart.returnFromMachine.value := by
  obtain ⟨raw, length, fetched, wasFetched, decoded⟩ := Machine.nextInstruction_fetched isNext
  have others := Machine.fetch_cachesOnly machine
  have cached := Machine.fetch_hartCached machine
  rw [wasFetched] at others cached
  refine ⟨fetched, others, cached, ?_⟩
  have allowed : fetched.hart.privilege = .machine :=
    (cached.apply (f := Hart.privilege) fun _ _ => rfl).trans top
  unfold apply
  dsimp only
  rw [Machine.executeNext_of_fetched wasFetched decoded, Machine.execute_mret allowed]

/-- A swap of the lent level gives loads and stores another context and drops nothing. -/
theorem leavesStale_of_swapsLentLevel {operation : Operation} {machine : Machine}
    (swaps : operation.SwapsLentLevel machine) :
    machine.hart.LeavesStale (operation.apply machine).hart := by
  obtain ⟨top, lent, swaps⟩ := swaps
  cases operation with
  | instruction =>
      obtain ⟨stays, isNext⟩ := swaps
      obtain ⟨fetched, others, cached, applied⟩ := apply_return top isNext
      rw [applied]
      have sameContext := cached.access.program.translationContext
      obtain ⟨tlb, same⟩ := cached
      have stale : fetched.hart.LeavesStale fetched.hart.returnFromMachine.value := by
        rw [same]
        exact Hart.leavesStale_returnFromMachine top lent stays
      exact
        { data := fun kind data => sameContext kind ▸ stale.data kind data
          fetch := stale.fetch.trans (sameContext .fetch)
          kept := fun kind data => (stale.kept kind data).trans (others kind data) }
  | trap cause => exact Hart.leavesStale_enterTrap cause top lent swaps
  | writeCsr address value => exact swaps.elim
  | reset => exact swaps.elim
  | resetHard => exact swaps.elim
  | restore snapshot => exact swaps.elim

/-- An operation leaves stale translations in a cache exactly if it swaps the level lent by M-mode
and the cache is one for loads or stores that holds something. -/
theorem flushes_iff (operation : Operation) (machine : Machine) (kind : AccessKind) :
    operation.Flushes machine kind ↔
      ¬ (operation.SwapsLentLevel machine ∧ kind ≠ .fetch ∧
        machine.hart.tlb.table kind ≠ .empty) := by
  constructor
  · rintro flushes ⟨swaps, data, filled⟩
    have stale := leavesStale_of_swapsLentLevel swaps
    exact filled ((stale.kept kind data).symm.trans (flushes (stale.data kind data)))
  · intro safe changed
    by_cases swaps : operation.SwapsLentLevel machine
    · have stale := leavesStale_of_swapsLentLevel swaps
      by_cases data : kind = .fetch
      · subst data
        exact absurd stale.fetch changed
      · refine (stale.kept kind data).trans ?_
        exact Decidable.not_not.1 fun filled => safe ⟨swaps, data, filled⟩
    · exact flushes_of_not_swapsLentLevel swaps kind changed

end Operation

/-! ## Runs of operations -/

/-- One machine becomes the other by operations that are admitted where they happen. -/
inductive Machine.Reaches (admits : Operation → Machine → Prop) (start : Machine) :
    Machine → Prop
  | refl : start.Reaches admits start
  | step {machine : Machine} (operation : Operation) (reached : start.Reaches admits machine)
      (admitted : admits operation machine) : start.Reaches admits (operation.apply machine)

namespace Operation

/-- The operation leaves the context of a kind of access as it is. -/
def KeepsContext (kind : AccessKind) (operation : Operation) (machine : Machine) : Prop :=
  (operation.apply machine).hart.translationContext kind = machine.hart.translationContext kind

/-- While no operation swaps the lent level, a cache was empty at some point of the run, and the
context has been the same from there on. -/
theorem cached_in_context {start machine : Machine} {kind : AccessKind}
    (empty : start.hart.tlb.table kind = .empty)
    (reached : start.Reaches (fun operation machine => ¬ operation.SwapsLentLevel machine)
      machine) :
    ∃ origin : Machine, origin.hart.tlb.table kind = .empty ∧
      origin.Reaches (KeepsContext kind) machine := by
  induction reached with
  | refl => exact ⟨start, empty, .refl⟩
  | @step before operation reached admitted ih =>
      -- Where the context changes, the cache is empty, and the run is counted anew from there.
      by_cases same : KeepsContext kind operation before
      · obtain ⟨origin, wasEmpty, rest⟩ := ih
        exact ⟨origin, wasEmpty, .step operation rest same⟩
      · exact ⟨_, flushes_of_not_swapsLentLevel admitted kind same, .refl⟩

/-- An operation leaves stale translations behind exactly if it swaps the level lent by M-mode while
something is cached for loads or stores. In a run without such operations, all that is cached
for a kind of access has been cached in the context of now. -/
theorem stale_iff_swapsLentLevel (operation : Operation) (config : HartConfig) (bus : Bus)
    (machine : Machine) (kind : AccessKind) :
    (operation.Flushes machine kind ↔
      ¬ (operation.SwapsLentLevel machine ∧ kind ≠ .fetch ∧
        machine.hart.tlb.table kind ≠ .empty)) ∧
    ((Machine.initial config bus).Reaches
        (fun operation machine => ¬ operation.SwapsLentLevel machine) machine →
      ∃ origin : Machine, origin.hart.tlb.table kind = .empty ∧
        origin.Reaches (KeepsContext kind) machine) := by
  refine ⟨flushes_iff operation machine kind, fun reached => ?_⟩
  exact cached_in_context (Tlb.table_empty kind) reached

/-! ### A machine whose trap leaves stale translations -/

/-- Four bytes of memory at address 0 with an instruction that loads them. -/
def selfLoadingBus : Bus where
  ranges := ⟨[(⟨0, 3, by decide⟩, 0)], List.pairwise_singleton ..⟩
  devices := #[.ram ((Ram.zeros 4).loadImage 0 [0x83, 0x20, 0, 0])]
  accesses := []

/-- A machine in M-mode that has loaded in the name of S-mode. -/
def lendingMachine : Machine :=
  instruction.apply ((writeCsr 0x300 0x20800).apply (Machine.initial ⟨0, 0⟩ selfLoadingBus))

/-- A trap in M-mode puts M-mode in place of the lent level and keeps what was cached under it. -/
theorem lendingMachine_not_flushes :
    (Machine.initial ⟨0, 0⟩ selfLoadingBus).Reaches (fun _ _ => True) lendingMachine ∧
      ¬ (trap (.exception .breakpoint)).Flushes lendingMachine .load := by
  refine ⟨.step _ (.step _ .refl trivial) trivial, fun flushes => ?_⟩
  have swaps : (trap (.exception .breakpoint)).SwapsLentLevel lendingMachine := by
    refine ⟨?_, ?_, ?_⟩ <;> decide +kernel
  have stale := leavesStale_of_swapsLentLevel swaps
  have emptied := (stale.kept .load nofun).symm.trans (flushes (stale.data .load nofun))
  have cached : ((lendingMachine.hart.tlb.table .load).get 0).isSome = true := by decide +kernel
  rw [emptied, TlbTable.get_empty] at cached
  cases cached

end Operation

end Rv32
