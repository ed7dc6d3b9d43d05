import Rv32.Proofs.Coherence

/-!
# What does not depend on the caches

Two machines that differ in their caches only (`Machine.EqModTlb`) stay alike under everything that
does not look at them: translations, traps, writes of registers. An address is looked up in the
caches first, but where these are coherent that gives what a translation would give
(`Machine.Twins.locate`).
-/

namespace Rv32

/-! ## Harts -/

namespace Hart

variable {first second : Hart}

theorem EqModTlb.enterTrap (same : first.EqModTlb second) (cause : Cause) :
    (first.enterTrap cause).value.EqModTlb (second.enterTrap cause).value := by
  obtain ⟨tlb, rfl⟩ := same
  rcases handled : first.delegates cause with _ | _
  · have handledToo : Hart.delegates { first with tlb := tlb } cause = false := handled
    rw [value_enterTrap_machine handled, value_enterTrap_machine handledToo]
    exact ⟨_, rfl⟩
  · have handledToo : Hart.delegates { first with tlb := tlb } cause = true := handled
    rw [value_enterTrap_supervisor handled, value_enterTrap_supervisor handledToo]
    exact ⟨_, rfl⟩

theorem EqModTlb.returnFromMachine (same : first.EqModTlb second) :
    first.returnFromMachine.value.EqModTlb second.returnFromMachine.value := by
  obtain ⟨tlb, rfl⟩ := same
  rw [value_returnFromMachine, value_returnFromMachine]
  exact ⟨_, rfl⟩

theorem EqModTlb.returnFromSupervisor (same : first.EqModTlb second) :
    first.returnFromSupervisor.value.EqModTlb second.returnFromSupervisor.value := by
  obtain ⟨tlb, rfl⟩ := same
  rw [value_returnFromSupervisor, value_returnFromSupervisor]
  exact ⟨_, rfl⟩

theorem EqModTlb.writeStatus (same : first.EqModTlb second) (value selected : Word) :
    (first.writeStatus value selected).value.EqModTlb
      (second.writeStatus value selected).value := by
  obtain ⟨tlb, rfl⟩ := same
  unfold Hart.writeStatus
  dsimp only
  split <;> exact ⟨_, rfl⟩

theorem EqModTlb.writeSatp (same : first.EqModTlb second) (value : Word) :
    (first.writeSatp value).value.EqModTlb (second.writeSatp value).value := by
  obtain ⟨tlb, rfl⟩ := same
  unfold Hart.writeSatp
  dsimp only
  split <;> exact ⟨_, rfl⟩

theorem EqModTlb.writeCsr (same : first.EqModTlb second) (register : Csr) (value : Word) :
    (first.writeCsr register value).value.EqModTlb (second.writeCsr register value).value := by
  cases register with
  | sstatus => exact same.writeStatus ..
  | mstatus => exact same.writeStatus ..
  | satp => exact same.writeSatp ..
  | _ =>
      obtain ⟨tlb, rfl⟩ := same
      exact ⟨_, rfl⟩

theorem EqModTlb.writeAddress (same : first.EqModTlb second) (address : CsrAddress) (value : Word) :
    (Operation.ofHost first (first.writeAddress address value)).EqModTlb
      (Operation.ofHost second (second.writeAddress address value)) := by
  unfold Hart.writeAddress
  split
  · exact same.writeCsr ..
  · exact same

theorem EqModTlb.restore (same : first.EqModTlb second) (snapshot : Snapshot) :
    (Operation.ofHost first (first.restore snapshot)).EqModTlb
      (Operation.ofHost second (second.restore snapshot)) := by
  obtain ⟨tlb, rfl⟩ := same
  unfold Hart.restore
  split <;> exact ⟨_, rfl⟩

/-- The caches are no part of a snapshot. -/
theorem EqModTlb.snapshot (same : first.EqModTlb second) : second.snapshot = first.snapshot :=
  same.apply fun _ _ => rfl

end Hart

namespace Machine

/-! ## Machines -/

/-- The machine with other caches. -/
def withTlb (machine : Machine) (tlb : Tlb) : Machine :=
  { machine with hart := { machine.hart with tlb := tlb } }

/-- The machines differ at most in what their caches hold. -/
structure EqModTlb (first second : Machine) : Prop where
  hart : first.hart.EqModTlb second.hart
  bus : second.bus = first.bus

namespace EqModTlb

variable {first second : Machine}

theorem refl (machine : Machine) : machine.EqModTlb machine := ⟨.refl _, rfl⟩

theorem of_withTlb (machine : Machine) (tlb : Tlb) : machine.EqModTlb (machine.withTlb tlb) :=
  ⟨⟨tlb, rfl⟩, rfl⟩

theorem eq_withTlb (same : first.EqModTlb second) : ∃ tlb, second = first.withTlb tlb := by
  obtain ⟨⟨tlb, hart⟩, bus⟩ := same
  refine ⟨tlb, ?_⟩
  cases second
  cases hart
  cases bus
  rfl

theorem trapped (same : first.EqModTlb second) (cause : Cause) :
    (first.trapped cause).EqModTlb (second.trapped cause) :=
  ⟨same.hart.enterTrap cause, same.bus⟩

theorem counted (same : first.EqModTlb second) : first.counted.EqModTlb second.counted := by
  obtain ⟨tlb, rfl⟩ := same.eq_withTlb
  exact ⟨⟨tlb, rfl⟩, rfl⟩

theorem idle (same : first.EqModTlb second) (cycles : Nat) :
    (first.idle cycles).EqModTlb (second.idle cycles) := by
  obtain ⟨tlb, rfl⟩ := same.eq_withTlb
  exact ⟨⟨tlb, rfl⟩, rfl⟩

theorem pathOf_eq (same : first.EqModTlb second) (address : Word) (kind : AccessKind) :
    second.pathOf address kind = first.pathOf address kind := by
  obtain ⟨tlb, rfl⟩ := same.eq_withTlb
  rfl

theorem nextInterrupt_eq (same : first.EqModTlb second) :
    second.hart.nextInterrupt = first.hart.nextInterrupt :=
  same.hart.apply fun _ _ => rfl

end EqModTlb

/-- The effects of a walk are the same whatever the caches hold. -/
theorem translate_withTlb {machine : Machine} {address : Word} {kind : AccessKind} (tlb : Tlb)
    (inside : ∀ location ∈ machine.pathOf address kind, machine.bus.InMemory location) :
    (translate address kind).outcome (machine.withTlb tlb) =
      (((translate address kind).outcome machine).1,
        ((translate address kind).outcome machine).2.withTlb tlb) := by
  have same : (machine.withTlb tlb).hart.translationContext kind =
      machine.hart.translationContext kind := rfl
  have kept := translate_hartKept address kind machine
  refine (translate_outcome_of_context same inside).trans (Prod.ext rfl ?_)
  exact congrArg (fun hart : Hart => Machine.mk { hart with tlb := tlb } _) kept.symm

/-- Where the caches are coherent, to locate an address is to translate it and to look up its
region. -/
theorem Coherent.locate_outcome {seen : List Word} {machine : Machine}
    (coherent : Coherent seen machine) (address : Word) (kind : AccessKind) :
    ∃ tlb, (Machine.locate address kind).outcome machine =
      (((Machine.translate address kind).outcome machine).1.map fun physical =>
          (physical, machine.bus.findRegion physical),
        ((Machine.translate address kind).outcome machine).2.withTlb tlb) := by
  rcases looked : machine.hart.tlb.lookup address kind with _ | ⟨physical, region⟩
  · rw [locate_of_miss looked]
    have map := translate_mapKept address kind machine
    rcases translated : (Machine.translate address kind).outcome machine with
      ⟨raised | physical, middle⟩
    · exact ⟨middle.hart.tlb, rfl⟩
    · rw [translated] at map
      have found := Bus.SameMap.findRegion_eq map physical
      dsimp only at found ⊢
      cases isRegion : middle.bus.findRegion physical with
      | none =>
          rw [isRegion] at found
          refine ⟨middle.hart.tlb, Prod.ext ?_ rfl⟩
          exact congrArg (fun region? => Except.ok (physical, region?)) found
      | some region =>
          rw [isRegion] at found
          refine ⟨middle.hart.tlb.insert address physical region kind, Prod.ext ?_ rfl⟩
          exact congrArg (fun region? => Except.ok (physical, region?)) found
  · have located := locate_of_hit looked
    have settled := coherent.settled_of_lookup looked
    have found := coherent.sound.findRegion_of_locate located
    rw [located, settled.translate coherent.inside]
    refine ⟨machine.hart.tlb, Prod.ext ?_ rfl⟩
    exact congrArg (fun region? => Except.ok (physical, region?)) found.symm

/-! ## Machines with coherent caches -/

/-- Machines that differ at most in their caches, where both caches are coherent. -/
structure Twins (seen : List Word) (first second : Machine) : Prop where
  same : first.EqModTlb second
  left : Coherent seen first
  right : Coherent seen second

/-- Twins locate an address in the same place, and they stay twins. -/
theorem Twins.locate {seen : List Word} {first second : Machine} {address : Word}
    {kind : AccessKind}
    (twins : Twins seen first second)
    (path : ∀ location ∈ first.pathOf address kind, location ∈ seen) :
    ∃ result after afterToo, (Machine.locate address kind).outcome first = (result, after) ∧
      (Machine.locate address kind).outcome second = (result, afterToo) ∧
      Twins seen after afterToo := by
  obtain ⟨same, left, right⟩ := twins
  have pathToo : ∀ location ∈ second.pathOf address kind, location ∈ seen := by
    rw [same.pathOf_eq]
    exact path
  have leftAfter := left.locate path
  have rightAfter := right.locate pathToo
  obtain ⟨_, located⟩ := left.locate_outcome address kind
  obtain ⟨_, locatedToo⟩ := right.locate_outcome address kind
  obtain ⟨tlb, rfl⟩ := same.eq_withTlb
  rw [translate_withTlb tlb (left.inside_path path)] at locatedToo
  rw [located] at leftAfter ⊢
  rw [locatedToo] at rightAfter ⊢
  exact ⟨_, _, _, rfl, rfl, ⟨⟨_, rfl⟩, rfl⟩, leftAfter, rightAfter⟩

end Machine

end Rv32
