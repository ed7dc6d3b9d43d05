import Rv32.Proofs.LegalStatus
import Rv32.Proofs.SnapshotCompleteness

/-!
# What a hart makes of a snapshot

A hart accepts the snapshots whose status and trap vectors are legal (`Snapshot.Legal`). Of the other
fields it takes the bits that their registers implement, and gives them back when it is asked for its
state (`Snapshot.normalised`). A refusal names the field at fault with its contents, and leaves the
hart as it was.

The snapshots that harts give are the legal ones without such excess bits (`Snapshot.given_iff`), so
what was restored once is restored without a change.
-/

namespace Rv32

/-- The contents of a trap vector in a snapshot. -/
def VectorRegister.contents (snapshot : Snapshot) : VectorRegister → Word
  | mtvec => snapshot.mtvec
  | stvec => snapshot.stvec

namespace Snapshot

/-- The snapshots that can be restored. -/
structure Legal (snapshot : Snapshot) : Prop where
  status : Status.Legal snapshot.mstatus
  vectors : ∀ register : VectorRegister, (register.contents snapshot).getLsbD 1 = false

/-- The snapshot without the bits that its registers do not implement: contents of `x0`, the
delegation of calls from M-mode and of interrupts other than those of S-mode, the enabling of
interrupts that do not exist and of counters other than those of cycles and instructions, odd
addresses of instructions, and numbers of address spaces. -/
def normalised (snapshot : Snapshot) : Snapshot :=
  { snapshot with
    x := snapshot.x.setIfInBounds 0 0
    medeleg := snapshot.medeleg &&& ~~~0x800
    mideleg := snapshot.mideleg &&& 0x222
    mie := snapshot.mie &&& 0xAAA
    mcounteren := snapshot.mcounteren &&& 0b101
    mepc := snapshot.mepc &&& ~~~1
    scounteren := snapshot.scounteren &&& 0b101
    sepc := snapshot.sepc &&& ~~~1
    satp := snapshot.satp &&& ~~~0x7FC00000 }

end Snapshot

/-- What an error says about the snapshot that was refused. -/
def SnapshotError.Blames (snapshot : Snapshot) : SnapshotError → Prop
  | illegalStatus value => value = snapshot.mstatus ∧ ¬Status.Legal value
  | reservedVectorMode register value =>
    value = register.contents snapshot ∧ value.getLsbD 1 = true

/-- A snapshot that is blamed for something is not legal. -/
theorem SnapshotError.Blames.not_legal {refusal : SnapshotError} {snapshot : Snapshot}
    (blames : refusal.Blames snapshot) : ¬snapshot.Legal := by
  intro legal
  cases refusal with
  | illegalStatus value =>
      obtain ⟨rfl, illegal⟩ := blames
      exact illegal legal.status
  | reservedVectorMode register value =>
      obtain ⟨rfl, reserved⟩ := blames
      rw [legal.vectors register] at reserved
      cases reserved

theorem TrapVector.ofWord?_eq_none {word : Word} (missing : ofWord? word = none) :
    word.getLsbD 1 = true := by
  unfold ofWord? at missing
  split at missing
  · rename_i reserved
    exact reserved
  · cases missing

/-- A trap vector is read from a word as it stands. -/
theorem TrapVector.ofWord?_eq_some {word : Word} {vector : TrapVector}
    (found : ofWord? word = some vector) : word.getLsbD 1 = false ∧ vector.bits = word := by
  unfold ofWord? at found
  split at found
  · cases found
  · rename_i clear
    cases found
    have places : ∀ bit < 32, vectorBits.getLsbD bit = true ∨ bit = 1 := by decide
    refine ⟨Bool.eq_false_iff.2 clear, BitVec.eq_of_getLsbD_eq fun bit inside => ?_⟩
    rw [Warl.bits_ofWord, BitVec.getLsbD_and]
    rcases places bit inside with stored | rfl
    · rw [stored, Bool.and_true]
    · rw [Bool.eq_false_iff.2 clear]
      rfl

theorem Registers.x_ofVector (x : Vector Word 32) (pc : Word) :
    (ofVector x pc).x = x.setIfInBounds 0 0 := by
  refine Vector.ext fun index inside => ?_
  unfold ofVector
  rw [Vector.getElem_setIfInBounds, Vector.getElem_set]

namespace Hart

/-- What a hart becomes in which a snapshot is restored. -/
structure Restored (before : Hart) (snapshot : Snapshot) (after : Hart) : Prop where
  snapshot : after.snapshot = snapshot.normalised
  tlb : after.tlb = .empty
  config : after.config = before.config
  clock : after.clock = before.clock

/-- A hart restores a legal snapshot, and refuses any other with a reason. -/
theorem restore_cases (hart : Hart) (snapshot : Snapshot) :
    (∃ refusal, hart.restore snapshot = .error refusal ∧ refusal.Blames snapshot) ∨
      snapshot.Legal ∧ ∃ after, hart.restore snapshot = .ok after ∧
        hart.Restored snapshot after.value := by
  unfold restore
  rcases status? : Status.ofWord? snapshot.mstatus with _ | status
  · have illegal : ¬Status.Legal snapshot.mstatus := by
      rw [← Status.isSome_ofWord?_iff, status?]
      exact Bool.false_ne_true
    exact .inl ⟨_, rfl, rfl, illegal⟩
  rcases mtvec? : TrapVector.ofWord? snapshot.mtvec with _ | mtvec
  · exact .inl ⟨_, rfl, rfl, TrapVector.ofWord?_eq_none mtvec?⟩
  rcases stvec? : TrapVector.ofWord? snapshot.stvec with _ | stvec
  · exact .inl ⟨_, rfl, rfl, TrapVector.ofWord?_eq_none stvec?⟩
  have mstatusRead : status.toWord = snapshot.mstatus := Status.ofWord?_eq_some_iff.1 status?
  obtain ⟨mtvecLegal, mtvecRead⟩ := TrapVector.ofWord?_eq_some mtvec?
  obtain ⟨stvecLegal, stvecRead⟩ := TrapVector.ofWord?_eq_some stvec?
  refine .inr ⟨⟨?_, ?_⟩, _, rfl, ?_, rfl, rfl, rfl⟩
  · exact Status.legal_iff.2 ⟨status, mstatusRead⟩
  · rintro (_ | _)
    · exact mtvecLegal
    · exact stvecLegal
  · unfold Snapshot.normalised
    rw [← mstatusRead, ← mtvecRead, ← stvecRead, ← Registers.x_ofVector snapshot.x snapshot.pc]
    rfl

end Hart

namespace Snapshot

/-- Harts give exactly the legal snapshots without bits that registers do not implement. -/
theorem given_iff {snapshot : Snapshot} :
    (∃ hart : Hart, hart.snapshot = snapshot) ↔ snapshot.Legal ∧ snapshot.normalised = snapshot := by
  constructor
  · rintro ⟨hart, rfl⟩
    have accepted : hart.restore hart.snapshot = .ok hart.flush := Hart.restore_snapshot rfl rfl
    rcases hart.restore_cases hart.snapshot with ⟨refusal, refused, _⟩ | ⟨legal, after, ok, restored⟩
    · cases accepted.symm.trans refused
    · cases accepted.symm.trans ok
      exact ⟨legal, restored.snapshot.symm⟩
  · rintro ⟨legal, normal⟩
    rcases (Hart.initial .standard).restore_cases snapshot with
      ⟨refusal, _, blames⟩ | ⟨_, after, _, restored⟩
    · exact absurd legal blames.not_legal
    · exact ⟨after.value, restored.snapshot.trans normal⟩

end Snapshot

namespace Machine

variable {machine : Machine} {snapshot : Snapshot}

theorem apply_restore_error {refusal : SnapshotError}
    (refused : machine.hart.restore snapshot = .error refusal) :
    (HostAction.restore snapshot).answer machine = .snapshotRefused refusal ∧
      (HostAction.restore snapshot).apply machine = machine := by
  unfold HostAction.answer HostAction.apply Operation.apply
  dsimp only
  rw [refused]
  exact ⟨rfl, rfl⟩

theorem apply_restore_ok {after : Logged Hart}
    (accepted : machine.hart.restore snapshot = .ok after) :
    (HostAction.restore snapshot).answer machine = .done ∧
      (HostAction.restore snapshot).apply machine = { machine with hart := after.value } := by
  unfold HostAction.answer HostAction.apply Operation.apply
  dsimp only
  rw [accepted]
  exact ⟨rfl, rfl⟩

/-- A machine with empty caches keeps its state when it is restored. -/
theorem apply_restore_snapshot (empty : machine.hart.tlb = .empty) :
    (HostAction.restore machine.hart.snapshot).answer machine = .done ∧
      (HostAction.restore machine.hart.snapshot).apply machine = machine := by
  obtain ⟨done, same⟩ := apply_restore_ok (Hart.restore_snapshot rfl rfl)
  refine ⟨done, same.trans ?_⟩
  have flushed : machine.hart.flush.value = machine.hart := by
    change { machine.hart with tlb := .empty } = machine.hart
    rw [← empty]
  rw [flushed]

/-- (1) A machine refuses exactly the snapshots that are not legal. (2) When it refuses one, it names
a fault and stays as it is; otherwise it takes all over that registers implement, empties its caches
and leaves the bus alone, and then restoring its own state changes nothing. -/
theorem restore_exact (machine : Machine) (snapshot : Snapshot) :
    let action := HostAction.restore snapshot
    let after := action.apply machine
    ((∃ refusal, action.answer machine = .snapshotRefused refusal) ↔ ¬snapshot.Legal) ∧
      ((∃ refusal, action.answer machine = .snapshotRefused refusal ∧ refusal.Blames snapshot ∧
          after = machine) ∨
        action.answer machine = .done ∧ machine.hart.Restored snapshot after.hart ∧
          after.bus = machine.bus ∧
          (HostAction.restore after.hart.snapshot).answer after = .done ∧
          (HostAction.restore after.hart.snapshot).apply after = after) := by
  intro action after
  rcases machine.hart.restore_cases snapshot with
    ⟨refusal, refused, blames⟩ | ⟨legal, restoredHart, accepted, restored⟩
  · obtain ⟨answer, same⟩ := apply_restore_error refused
    exact ⟨iff_of_true ⟨refusal, answer⟩ blames.not_legal, .inl ⟨refusal, answer, blames, same⟩⟩
  · obtain ⟨answer, same⟩ : action.answer machine = .done ∧
        after = { machine with hart := restoredHart.value } := apply_restore_ok accepted
    have hart : after.hart = restoredHart.value := by rw [same]
    have bus : after.bus = machine.bus := by rw [same]
    rw [← hart] at restored
    have notRefused : ¬∃ refusal, action.answer machine = .snapshotRefused refusal := by
      rintro ⟨refusal, refused⟩
      cases answer.symm.trans refused
    exact ⟨iff_of_false notRefused (not_not_intro legal),
      .inr ⟨answer, restored, bus, apply_restore_snapshot restored.tlb⟩⟩

end Machine

end Rv32
