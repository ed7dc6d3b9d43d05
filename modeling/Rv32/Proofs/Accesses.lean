import Rv32.Proofs.Outcome

/-!
# Relations kept along accesses

An access locates its address, by a walk if the caches do not know it, and then reads or writes
there. A relation between machines that holds along these parts holds along every access, also along
one that fails. `Machine.Respects` names the parts that loads, stores and atomic operations have.
-/

namespace Rv32

theorem PageTableEntry.aligned_pageBase (page : BitVec 22) :
    Width.word.Aligned (pageBase page) := by
  change (pageBase page).toNat % 4 = 0
  unfold pageBase
  rw [BitVec.toNat_shiftLeft, Nat.shiftLeft_eq]
  omega

namespace Machine

theorem aligned_entryAddress {table : Word} (aligned : Width.word.Aligned table) (address : Word)
    (level : Nat) : Width.word.Aligned (entryAddress table address level) := by
  change table.toNat % 4 = 0 at aligned
  change (entryAddress table address level).toNat % 4 = 0
  unfold entryAddress
  have four : (4 : Word).toNat = 4 := rfl
  rw [BitVec.toNat_add, BitVec.toNat_mul, four]
  omega

variable {relation : Machine → Machine → Prop}

section Parts

variable (refl : ∀ machine, relation machine machine)
  (trans : ∀ first second third, relation first second → relation second third →
    relation first third)

include refl trans

section Walk

variable (loads : ∀ location, (loadPhysical location .word).Within relation)
  (marks : ∀ location, Width.word.Aligned location → ∀ entry kind,
    (markUsed location entry kind).Within relation)

include loads marks

/-- Tables begin at the start of a page, so a walk marks aligned words only. -/
theorem walk_within (address : Word) (kind : AccessKind) (levels : Nat) {table : Word}
    (aligned : Width.word.Aligned table) : (walk address kind levels table).Within relation := by
  induction levels generalizing table with
  | zero => exact .throw refl _
  | succ level ih =>
      have here := aligned_entryAddress aligned address level
      rw [walk]
      refine .bind trans (.lift (loads _)) fun bits => ?_
      refine .ite (.throw refl _) (.ite (ih (PageTableEntry.aligned_pageBase _)) ?_)
      refine .bind trans (.lift refl) fun hart => .ite (.throw refl _) ?_
      exact .bind trans (.lift (marks _ here _ _)) fun _ => .pure refl _

theorem translate_within (address : Word) (kind : AccessKind) :
    (translate address kind).Within relation := by
  refine .bind trans (.lift refl) fun hart => .ite (.pure refl _) ?_
  exact walk_within refl trans loads marks _ _ _ (PageTableEntry.aligned_pageBase _)

end Walk

theorem locate_within {address : Word} {kind : AccessKind}
    (translates : (translate address kind).Within relation)
    (inserts : ∀ (machine : Machine) physical region,
      machine.bus.findRegion physical = some region →
      relation machine
        { machine with
          hart :=
            { machine.hart with tlb := machine.hart.tlb.insert address physical region kind } }) :
    (locate address kind).Within relation := by
  refine .bind trans (.lift refl) fun hart => ?_
  split
  · exact .pure refl _
  · refine .bind trans translates fun physical => ?_
    intro machine
    rw [Attempt.outcome_lift_bind, Effect.outcome_findRegion]
    dsimp only
    cases found : machine.bus.findRegion physical with
    | none => exact refl machine
    | some region => exact inserts machine physical region found

section Fetch

variable (locates : ∀ address, (locate address .fetch).Within relation)
  (reads : ∀ physical region? width, (readLocated physical region? width).Within relation)

include locates reads

theorem fetchParcel_within (address : Word) : (fetchParcel address).Within relation := by
  refine .bind trans (locates address) fun place => ?_
  rcases place with ⟨physical, region | region⟩
  · exact .throw refl _
  · refine .ite (.bind trans (.lift ?_) fun value => .pure refl _) (.throw refl _)
    exact reads physical (some region) .half

theorem fetch_within : fetch.Within relation := by
  have parcel := fetchParcel_within refl trans locates reads
  refine .bind trans (.lift refl) fun hart => .guard refl (.bind trans (parcel _) fun low => ?_)
  refine .ite (.pure refl _) (.bind trans (parcel _) fun high => ?_)
  exact .pure refl _

end Fetch

end Parts

/-- The relation holds along the parts that accesses are made of. -/
structure Respects (relation : Machine → Machine → Prop) : Prop where
  refl : ∀ machine, relation machine machine
  trans : ∀ first second third, relation first second → relation second third →
    relation first third
  locate : ∀ address kind, (locate address kind).Within relation
  read : ∀ physical region? width, (readLocated physical region? width).Within relation
  write : ∀ physical region? value width,
    (writeLocated physical region? value width).Within relation
  reserve : ∀ (machine : Machine) (reservation : Option Word),
    relation machine { machine with hart := { machine.hart with reservation := reservation } }

namespace Respects

variable (respects : Respects relation)

include respects

theorem load (address : Word) (width : Width) : (load address width).Within relation := by
  refine .guard respects.refl (.bind respects.trans (respects.locate _ _) fun place => ?_)
  exact .lift (respects.read _ _ _)

theorem store (address value : Word) (width : Width) :
    (store address value width).Within relation := by
  refine .guard respects.refl (.bind respects.trans (respects.locate _ _) fun place => ?_)
  exact .lift (respects.write _ _ _ _)

theorem atomicUpdate (address : Word) (change : Word → Word) :
    (atomicUpdate address change).Within relation := by
  refine .guard respects.refl (.bind respects.trans (respects.locate _ _) fun place => ?_)
  refine .bind respects.trans (.lift (respects.read _ _ _)) fun old => ?_
  exact .bind respects.trans (.lift (respects.write _ _ _ _)) fun _ => .pure respects.refl _

theorem loadReserved (address : Word) : (loadReserved address).Within relation := by
  refine .guard respects.refl (.bind respects.trans (respects.locate _ _) fun place => ?_)
  refine .bind respects.trans (.lift fun machine => respects.reserve machine _) fun _ => ?_
  exact .lift (respects.read _ _ _)

theorem storeConditional (address value : Word) :
    (storeConditional address value).Within relation := by
  refine .bind respects.trans (.lift respects.refl) fun hart => ?_
  refine .bind respects.trans (.lift fun machine => respects.reserve machine _) fun _ => ?_
  refine .guard respects.refl (.bind respects.trans (respects.locate _ _) fun place => ?_)
  refine .ite (.bind respects.trans (.lift (respects.write _ _ _ _)) fun _ => ?_) ?_
  · exact .pure respects.refl _
  · exact .pure respects.refl _

theorem fetch : fetch.Within relation :=
  fetch_within respects.refl respects.trans (respects.locate · .fetch) respects.read

theorem require (allowed : Bool) (raw : Word) : (require allowed raw).Within relation :=
  .ite (.pure respects.refl _) (.throw respects.refl _)

end Respects

end Machine

end Rv32
