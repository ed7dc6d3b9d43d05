import Rv32.Proofs.Sv32

/-!
# Physical addresses of 34 bits in 32

The page numbers of Sv32 have 22 bits, so its physical addresses have 34, and a superpage has to
start at a multiple of its size. Translation works in 32 bits. It never asks whether a page number
fits into them, nor whether a superpage starts where it may.

`Sv32.trail` lists the entries that a walk reads, in main memory or elsewhere. `Sv32.Faithful` says
that the walk kept to the addresses of the architecture, and `Machine.translate_faithful_iff` when
that is so: a page number above 20 bits and a superpage that is not aligned go unnoticed, always.
-/

namespace Rv32

namespace Sv32

/-- A step of a walk: an entry, with the page number and the level of the table it was read from. -/
structure Step where
  table : BitVec 22
  level : Nat
  entry : PageTableEntry
deriving DecidableEq

/-- The address that the architecture gives to the entry of a step. -/
def Step.place (step : Step) (address : Word) : Nat := entryPlace step.table address step.level

/-- The steps of a walk from the table with this page number on. Reading an entry may change the
bus, if the entry belongs to a device. -/
def trail (address : Word) : (levels : Nat) → (table : BitVec 22) → Bus → List Step
  | 0, _, _ => []
  | level + 1, table, bus =>
    let read := bus.load (cut (entryPlace table address level)) .word
    let entry : PageTableEntry := ⟨read.1⟩
    ⟨table, level, entry⟩ :: if IsPointer entry then trail address level entry.page read.2 else []

/-- A walk that ended at this leaf did what the architecture says, as far as addresses go: it read
each entry where that entry is, the leaf starts at a multiple of what it maps, and the result is the
physical address and not a part of it. -/
structure Faithful (address physical : Word) (steps : List Step) (leaf : Step) : Prop where
  reads : ∀ step ∈ steps, (cut (step.place address)).toNat = step.place address
  aligned : 2 ^ (10 * leaf.level) ∣ leaf.entry.page.toNat
  result : physical.toNat = place leaf.entry.page address leaf.level

/-! ## Addresses that fit -/

theorem toNat_cut (number : Nat) : (cut number).toNat = number % 2 ^ 32 := BitVec.toNat_ofNat ..

theorem toNat_cut_eq_iff (number : Nat) : (cut number).toNat = number ↔ number < 2 ^ 32 := by
  rw [toNat_cut]
  omega

/-- Entries lie below 4 GiB if their table does. -/
theorem entryPlace_lt_iff (table : BitVec 22) (address : Word) (level : Nat) :
    entryPlace table address level < 2 ^ 32 ↔ table.toNat < 2 ^ 20 := by
  have index : address.toNat / span level % 1024 < 1024 := Nat.mod_lt _ (by decide)
  unfold entryPlace
  omega

/-- What a leaf maps lies below 4 GiB if the page it names does. -/
theorem place_lt_iff (page : BitVec 22) (address : Word) {level : Nat} (low : level < 2) :
    place page address level < 2 ^ 32 ↔ page.toNat < 2 ^ 20 := by
  have oneOf : level = 0 ∨ level = 1 := by omega
  unfold place
  rcases oneOf with rfl | rfl
  · have offset : address.toNat % span 0 < 2 ^ 12 := Nat.mod_lt _ (by decide)
    change page.toNat / 1 * 2 ^ 12 + _ < _ ↔ _
    omega
  · have offset : address.toNat % span 1 < 2 ^ 22 := Nat.mod_lt _ (by decide)
    change page.toNat / 1024 * 2 ^ 22 + _ < _ ↔ _
    omega

/-! ## Walks -/

section Trail

variable {address : Word} {kind : AccessKind}

theorem level_lt_of_mem_trail {levels : Nat} {table : BitVec 22} {bus : Bus} {step : Step}
    (member : step ∈ trail address levels table bus) : step.level < levels := by
  induction levels generalizing table bus with
  | zero => cases member
  | succ level ih =>
      unfold trail at member
      dsimp only at member
      rcases List.mem_cons.1 member with rfl | deeper
      · exact Nat.lt_succ_self level
      · split at deeper
        · exact Nat.lt_succ_of_lt (ih deeper)
        · cases deeper

/-- In one table a walk goes on at a pointer, ends at a leaf that may be used, and fails at anything
else. -/
theorem walk_succ (machine : Machine) {level : Nat} (table : BitVec 22) (low : level < 2) :
    (Machine.walk address kind (level + 1) (PageTableEntry.pageBase table)).outcome machine =
      let location := cut (entryPlace table address level)
      let read := machine.bus.load location .word
      let entry : PageTableEntry := ⟨read.1⟩
      if IsPointer entry then
        (Machine.walk address kind level (PageTableEntry.pageBase entry.page)).outcome
          { machine with bus := read.2 }
      else if Admits machine.hart kind entry then
        (.ok (cut (place entry.page address level)),
          { machine with bus := read.2.mark ⟨location, entry, level⟩ kind })
      else (.error (kind.pageFault address), { machine with bus := read.2 }) := by
  rw [Machine.walk, Attempt.outcome_lift_bind, Effect.outcome_loadPhysical, entryAddress_eq]
  generalize cut (entryPlace table address level) = location
  dsimp only
  generalize machine.bus.load location .word = read
  obtain ⟨bits, bus⟩ := read
  dsimp only
  rw [Attempt.outcome_ite, Attempt.outcome_ite]
  simp only [isPointer_iff, admits_iff]
  cases PageTableEntry.wellFormed ⟨bits⟩ with
  | false => simp
  | true =>
      cases PageTableEntry.isPointer ⟨bits⟩ with
      | true => simp
      | false =>
          rw [Attempt.outcome_lift_bind, Effect.outcome_getHart]
          dsimp only
          rw [Attempt.outcome_ite]
          cases Machine.permits ⟨bits⟩ machine.hart kind with
          | false => simp
          | true =>
              have marked := Machine.markUsed_outcome ⟨location, ⟨bits⟩, level⟩ kind
                { machine with bus := bus }
              have physical := physical_eq ⟨location, ⟨bits⟩, level⟩ address low
              unfold Leaf.physical at physical
              dsimp only at marked physical
              rw [Attempt.outcome_lift_bind, marked, PageTableEntry.translate_used, physical]
              rfl

/-- A walk gives the address behind the last entry it reads, cut to 32 bits, if that is a leaf which
may be used, and a page fault if not. -/
theorem walk_outcome (machine : Machine) {levels : Nat} (table : BitVec 22) (few : levels ≤ 2) :
    ((Machine.walk address kind levels (PageTableEntry.pageBase table)).outcome machine).1 =
      match (trail address levels table machine.bus).getLast?.filter
          (Admits machine.hart kind ·.entry) with
      | some leaf => .ok (cut (place leaf.entry.page address leaf.level))
      | none => .error (kind.pageFault address) := by
  induction levels generalizing table machine with
  | zero => rfl
  | succ level ih =>
      unfold trail
      rw [walk_succ machine table (by omega)]
      dsimp only
      generalize machine.bus.load (cut (entryPlace table address level)) .word = read
      obtain ⟨bits, bus⟩ := read
      dsimp only
      rw [List.getLast?_cons]
      by_cases pointer : IsPointer ⟨bits⟩
      · rw [if_pos pointer, if_pos pointer]
        have notLeaf : ¬ Admits machine.hart kind ⟨bits⟩ := fun admits => by
          have excluded := ((admits_iff _ _ _).1 admits).2.1
          rw [((isPointer_iff _).1 pointer).2] at excluded
          cases excluded
        refine (ih { machine with bus := bus } _ (by omega)).trans ?_
        dsimp only
        cases (trail address level (PageTableEntry.page ⟨bits⟩) bus).getLast? with
        | none => simp [Option.filter_some, notLeaf]
        | some last => rfl
      · rw [if_neg pointer, if_neg pointer]
        by_cases admits : Admits machine.hart kind ⟨bits⟩ <;> simp [Option.filter_some, admits]

end Trail

end Sv32

namespace Machine

/-- The steps of the walk for an address from the root table. -/
def stepsOf (machine : Machine) (address : Word) : List Sv32.Step :=
  Sv32.trail address 2 machine.hart.satp.rootPage machine.bus

/-- Where page tables are used, a translation succeeds exactly if the last entry it reads is a leaf
that may be used, whatever the page numbers on the way. The result is the address behind that leaf
modulo 4 GiB. It is the address of the architecture, reached on the way of the architecture, exactly
if every table and the page lie below 4 GiB and the leaf is aligned. -/
theorem translate_faithful_iff {machine : Machine} {address : Word} {kind : AccessKind}
    (walks : ¬ Bypasses machine.hart kind) :
    ((∃ physical, ((translate address kind).outcome machine).1 = .ok physical) ↔
      ∃ leaf, (machine.stepsOf address).getLast? = some leaf ∧
        Sv32.Admits machine.hart kind leaf.entry) ∧
    ∀ physical leaf,
      ((translate address kind).outcome machine).1 = .ok physical →
      (machine.stepsOf address).getLast? = some leaf →
      physical.toNat = Sv32.place leaf.entry.page address leaf.level % 2 ^ 32 ∧
      (Sv32.Faithful address physical (machine.stepsOf address) leaf ↔
        (∀ step ∈ machine.stepsOf address, step.table.toNat < 2 ^ 20) ∧
          leaf.entry.page.toNat < 2 ^ 20 ∧ 2 ^ (10 * leaf.level) ∣ leaf.entry.page.toNat) := by
  have walked : ((translate address kind).outcome machine).1 =
      match (machine.stepsOf address).getLast?.filter (Sv32.Admits machine.hart kind ·.entry) with
      | some leaf => .ok (Sv32.cut (Sv32.place leaf.entry.page address leaf.level))
      | none => .error (kind.pageFault address) := by
    unfold translate
    rw [Attempt.outcome_lift_bind, Effect.outcome_getHart]
    dsimp only
    rw [Attempt.outcome_ite]
    exact (congrArg Prod.fst (if_neg walks)).trans (Sv32.walk_outcome _ _ (Nat.le_refl 2))
  constructor
  · constructor
    · rintro ⟨physical, ran⟩
      rw [ran] at walked
      cases last : (machine.stepsOf address).getLast?.filter
          (Sv32.Admits machine.hart kind ·.entry) with
      | none =>
        rw [last] at walked
        cases walked
      | some leaf =>
        have admitted := Option.filter_eq_some_iff.1 last
        exact ⟨leaf, admitted.1, of_decide_eq_true admitted.2⟩
    · rintro ⟨leaf, last, admits⟩
      rw [last, Option.filter_some, if_pos (decide_eq_true admits)] at walked
      exact ⟨_, walked⟩
  · intro physical leaf ran last
    have low : leaf.level < 2 := Sv32.level_lt_of_mem_trail (List.mem_of_getLast? last)
    have value : physical.toNat = Sv32.place leaf.entry.page address leaf.level % 2 ^ 32 := by
      rw [ran, last, Option.filter_some] at walked
      split at walked
      · rename_i isLast
        split at isLast <;> cases isLast
        rw [Except.ok.inj walked, Sv32.toNat_cut]
      · cases walked
    refine ⟨value, fun faithful => ⟨fun step member => ?_, ?_, faithful.aligned⟩, ?_⟩
    · exact (Sv32.entryPlace_lt_iff ..).1 ((Sv32.toNat_cut_eq_iff _).1 (faithful.reads step member))
    · rw [← Sv32.place_lt_iff _ address low, ← faithful.result]
      exact physical.isLt
    · rintro ⟨tables, page, aligned⟩
      refine ⟨fun step member => ?_, aligned, ?_⟩
      · exact (Sv32.toNat_cut_eq_iff _).2 ((Sv32.entryPlace_lt_iff ..).2 (tables step member))
      · rw [value]
        exact Nat.mod_eq_of_lt ((Sv32.place_lt_iff _ address low).2 page)

/-- A supervisor whose root table is the page with this number. There is one entry in memory, at
address 0. -/
def rootMachine (root : BitVec 22) (entry : Word) : Machine where
  hart :=
    { Hart.initial .standard with
      privilege := .supervisor
      satp := .ofWord _ (0x80000000 ||| root.setWidth 32) }
  bus := .allMemory ((List.range 4).map (Word.byte entry))

/-- A root table at 4 GiB is read at address 0 instead, and the superpage at 4 GiB that it leads to
is the one at address 0. -/
theorem rootMachine_aliases :
    ((translate 0x1234 .load).outcome (rootMachine 0x100000 0x40000003)).1 = .ok 0x1234 ∧
      ¬ Sv32.Faithful 0x1234 0x1234 ((rootMachine 0x100000 0x40000003).stepsOf 0x1234)
        ⟨0x100000, 1, ⟨0x40000003⟩⟩ := by
  have walks : ¬ Bypasses (rootMachine 0x100000 0x40000003).hart .load := by decide +kernel
  have last : ((rootMachine 0x100000 0x40000003).stepsOf 0x1234).getLast? =
      some ⟨0x100000, 1, ⟨0x40000003⟩⟩ := by decide +kernel
  obtain ⟨succeeds, exactly⟩ := translate_faithful_iff walks
  obtain ⟨physical, ran⟩ := succeeds.2 ⟨_, last, by decide +kernel⟩
  obtain ⟨value, faithful⟩ := exactly physical _ ran last
  have isLow : physical = 0x1234 := BitVec.eq_of_toNat_eq value
  subst isLow
  refine ⟨ran, fun isFaithful => ?_⟩
  exact absurd (faithful.1 isFaithful).2.1 (by decide +kernel)

/-- An entry for the superpage that starts at the second page is good for a load, and gives
addresses in the superpage at 0. -/
theorem rootMachine_misaligned :
    ((translate 0x1234 .load).outcome (rootMachine 0 0x00000403)).1 = .ok 0x1234 ∧
      ∀ leaf, ((rootMachine 0 0x00000403).stepsOf 0x1234).getLast? = some leaf →
        ¬ Sv32.Faithful 0x1234 0x1234 ((rootMachine 0 0x00000403).stepsOf 0x1234) leaf := by
  have last : ((rootMachine 0 0x00000403).stepsOf 0x1234).getLast? = some ⟨0, 1, ⟨0x00000403⟩⟩ := by
    decide +kernel
  refine ⟨by rfl, fun leaf isLast faithful => ?_⟩
  rw [last] at isLast
  cases isLast
  exact absurd faithful.aligned (by decide +kernel)

end Machine

end Rv32
