import Rv32.Translation.Tlb

/-!
# Caches as histories

What a translation cache answers is told by what was done to it since the last flush. All virtual
pages whose numbers agree modulo 256 share one place in a table, which belongs to the latest insert
of one of them (`Tlb.LatestFill`). An address is served if this insert was for its own page and its
translation lies in the region that was inserted with it, and what was inserted for other kinds of
access, or for other devices than main memory, makes no difference (`Tlb.lookup_exact`).

Every history either spares a place throughout or has a latest update that does not
(`Tlb.spares_or_latest`), so what a place holds after a history is read off that update.
-/

namespace Rv32

/-! ## Pages as numbers -/

theorem toNat_pageOf (address : Word) : (pageOf address).toNat = address.toNat / 4096 := by
  have inside := address.isLt
  unfold pageOf
  rw [BitVec.extractLsb'_toNat, Nat.shiftRight_eq_div_pow]
  exact Nat.mod_eq_of_lt (by omega)

theorem pageOf_eq_iff {address other : Word} :
    pageOf address = pageOf other ↔ address.toNat / 4096 = other.toNat / 4096 := by
  rw [← BitVec.toNat_inj, toNat_pageOf, toNat_pageOf]

/-- The page of one address joined with the offset of another. -/
theorem toNat_pageAddress (target address : Word) :
    (pageAddress (pageOf target) (pageOffset address)).toNat =
      target.toNat / 4096 * 4096 + address.toNat % 4096 := by
  unfold pageAddress pageOffset
  rw [BitVec.toNat_append, ← Nat.shiftLeft_add_eq_or_of_lt (BitVec.isLt _), Nat.shiftLeft_eq,
    toNat_pageOf, BitVec.toNat_setWidth]

/-- Two pages share a place just if their numbers agree modulo 256. -/
theorem TlbTable.index_pageOf_eq_iff {address other : Word} :
    index (pageOf address) = index (pageOf other) ↔
      address.toNat / 4096 % 256 = other.toNat / 4096 % 256 := by
  have value (page : PageNumber) : (index page).val = page.toNat % 256 := BitVec.toNat_setWidth ..
  rw [Fin.ext_iff, value, value, toNat_pageOf, toNat_pageOf]

namespace Tlb

/-! ## Updates -/

/-- What is done to the caches. -/
inductive Update where
  | insert (address physical : Word) (region : Region) (kind : AccessKind)
  | flush
deriving DecidableEq

/-- The caches after an update. -/
def apply (tlb : Tlb) : Update → Tlb
  | .insert address physical region kind => tlb.insert address physical region kind
  | .flush => tlb.flush

/-- The caches after a sequence of updates. -/
def applyAll (tlb : Tlb) (updates : List Update) : Tlb := updates.foldl apply tlb

/-- An insert puts an entry into the place where the translation of an address is looked for. -/
def Update.Fills (address : Word) (kind : AccessKind) : Update → Prop
  | .insert virtual _ region other =>
    other = kind ∧ region.isMemory = true ∧
      virtual.toNat / 4096 % 256 = address.toNat / 4096 % 256
  | .flush => False

/-- An update leaves what is kept in the place where the translation of an address is looked for. -/
def Update.Spares (address : Word) (kind : AccessKind) (update : Update) : Prop :=
  update ≠ .flush ∧ ¬ update.Fills address kind

/-- An update may change the table for a kind of access. -/
def Update.concerns (kind : AccessKind) : Update → Bool
  | .insert _ _ region other => decide (other = kind ∧ region.isMemory = true)
  | .flush => true

/-- Since the last flush, the place where the translation of `address` is looked for was filled last
with the one of `virtual` to `target`. -/
def LatestFill (updates : List Update) (address : Word) (kind : AccessKind)
    (virtual target : Word) (region : Region) : Prop :=
  ∃ earlier later, updates = earlier ++ .insert virtual target region kind :: later ∧
    (Update.insert virtual target region kind).Fills address kind ∧
    ∀ update ∈ later, update.Spares address kind

variable {tlb other : Tlb} {update : Update} {updates : List Update} {kind : AccessKind}
  {address virtual target : Word} {region : Region}

/-! ## One update -/

theorem get_insert_of_fills
    (fills : (Update.insert virtual target region kind).Fills address kind) :
    ((tlb.insert virtual target region kind).table kind).get (pageOf address) =
      some ⟨pageOf virtual, pageOf target, region⟩ := by
  obtain ⟨-, isMemory, congruent⟩ := fills
  rw [table_insert, if_pos ⟨rfl, isMemory⟩, TlbTable.get_set,
    if_pos (TlbTable.index_pageOf_eq_iff.2 congruent)]

theorem get_apply_of_spares (spares : update.Spares address kind) :
    ((tlb.apply update).table kind).get (pageOf address) =
      (tlb.table kind).get (pageOf address) := by
  obtain ⟨notFlush, notFills⟩ := spares
  cases update with
  | flush => exact absurd rfl notFlush
  | insert virtual target region other =>
      unfold apply
      dsimp only
      rw [table_insert]
      split
      · rename_i inserted
        rw [TlbTable.get_set, if_neg fun shared =>
          notFills ⟨inserted.1, inserted.2, TlbTable.index_pageOf_eq_iff.1 shared⟩]
      · rfl

/-- An update that does not spare a place empties or fills it. -/
theorem Update.flush_or_fills (disturbs : ¬ update.Spares address kind) :
    update = .flush ∨ ∃ virtual target region, update = .insert virtual target region kind ∧
      update.Fills address kind := by
  by_cases flushes : update = .flush
  · exact .inl flushes
  · have fills : update.Fills address kind := Classical.not_not.1 fun not => disturbs ⟨flushes, not⟩
    cases update with
    | flush => exact absurd rfl flushes
    | insert virtual target region other =>
        obtain rfl : other = kind := fills.1
        exact .inr ⟨virtual, target, region, rfl, fills⟩

/-! ## Histories -/

theorem applyAll_split (tlb : Tlb) (earlier later : List Update) (update : Update) :
    tlb.applyAll (earlier ++ update :: later) =
      ((tlb.applyAll earlier).apply update).applyAll later :=
  List.foldl_append

theorem get_applyAll_of_spares (spares : ∀ update ∈ updates, update.Spares address kind) :
    ((tlb.applyAll updates).table kind).get (pageOf address) =
      (tlb.table kind).get (pageOf address) := by
  induction updates generalizing tlb with
  | nil => rfl
  | cons update rest ih =>
      obtain ⟨first, others⟩ := List.forall_mem_cons.1 spares
      exact (ih others).trans (get_apply_of_spares first)

/-- A history spares a place throughout, or it has a latest update that does not. -/
theorem spares_or_latest (updates : List Update) (address : Word) (kind : AccessKind) :
    (∀ update ∈ updates, update.Spares address kind) ∨
      ∃ earlier update later, updates = earlier ++ update :: later ∧
        ¬ update.Spares address kind ∧ ∀ update ∈ later, update.Spares address kind := by
  induction updates with
  | nil => exact .inl nofun
  | cons update rest ih =>
      rcases ih with spares | ⟨earlier, latest, later, rfl, disturbs, spares⟩
      · by_cases first : update.Spares address kind
        · exact .inl (List.forall_mem_cons.2 ⟨first, spares⟩)
        · exact .inr ⟨[], update, rest, rfl, first, spares⟩
      · exact .inr ⟨update :: earlier, latest, later, rfl, disturbs, spares⟩

theorem LatestFill.get (latest : LatestFill updates address kind virtual target region) :
    ((tlb.applyAll updates).table kind).get (pageOf address) =
      some ⟨pageOf virtual, pageOf target, region⟩ := by
  obtain ⟨earlier, later, rfl, fills, spares⟩ := latest
  rw [applyAll_split, get_applyAll_of_spares spares]
  exact get_insert_of_fills fills

/-- After a history that began with empty caches, an entry was left by the latest insert that filled
its place. -/
theorem get_applyAll_eq_some_iff {entry : TlbEntry} :
    ((empty.applyAll updates).table kind).get (pageOf address) = some entry ↔
      ∃ virtual target, LatestFill updates address kind virtual target entry.region ∧
        entry.virtualPage = pageOf virtual ∧ entry.physicalPage = pageOf target := by
  constructor
  · intro kept
    -- Empty caches hold no entry, and neither do those after a flush: the latest update filled.
    rcases spares_or_latest updates address kind with
      spares | ⟨earlier, update, later, rfl, disturbs, spares⟩
    · rw [get_applyAll_of_spares spares, table_empty, TlbTable.get_empty] at kept
      cases kept
    · rcases Update.flush_or_fills disturbs with rfl | ⟨virtual, target, region, rfl, fills⟩
      · rw [applyAll_split, get_applyAll_of_spares spares] at kept
        unfold apply at kept
        rw [table_flush, TlbTable.get_empty] at kept
        cases kept
      · have latest : LatestFill (earlier ++ .insert virtual target region kind :: later) address
            kind virtual target region := ⟨earlier, later, rfl, fills, spares⟩
        rw [latest.get] at kept
        cases kept
        exact ⟨virtual, target, latest, rfl, rfl⟩
  · rintro ⟨virtual, target, latest, ownPage, physicalPage⟩
    rw [latest.get, ← ownPage, ← physicalPage]

/-! ## Other tables -/

theorem table_apply_of_not_concerns (without : ¬ update.concerns kind = true) :
    (tlb.apply update).table kind = tlb.table kind := by
  cases update with
  | flush => exact absurd rfl without
  | insert virtual target region other =>
      exact (table_insert ..).trans (if_neg fun inserted => without (decide_eq_true inserted))

/-- A table depends on what it held before, and on no other table. -/
theorem table_apply_congr (same : tlb.table kind = other.table kind) (update : Update) :
    (tlb.apply update).table kind = (other.apply update).table kind := by
  cases update with
  | flush => rfl
  | insert virtual target region inserted =>
      unfold apply
      dsimp only
      rw [table_insert, table_insert, same]

/-- A table depends on the updates that concern it only. -/
theorem table_applyAll_filter (same : tlb.table kind = other.table kind) :
    (tlb.applyAll (updates.filter (Update.concerns kind))).table kind =
      (other.applyAll updates).table kind := by
  -- The caches differ in the other tables as soon as one of them skips an update.
  induction updates generalizing tlb other with
  | nil => exact same
  | cons update rest ih =>
      by_cases concerns : update.concerns kind = true
      · rw [List.filter_cons_of_pos concerns]
        exact ih (table_apply_congr same update)
      · rw [List.filter_cons_of_neg concerns]
        exact ih (same.trans (table_apply_of_not_concerns concerns).symm)

/-! ## Lookups -/

/-- A translation cache is direct-mapped. After any updates of empty caches a lookup answers with a
physical address and a region just if, since the last flush, the latest insert for this kind of
access of a page of main memory that is congruent to the one of the address modulo 256 was for the
same page and had this region, and the physical address, its physical page joined with the low 12
bits of the address, lies in the region. Other inserts never have an effect on it. -/
theorem lookup_exact (updates : List Update) (address : Word) (kind : AccessKind) :
    (∀ physical region,
      (empty.applyAll updates).lookup address kind = some (physical, region) ↔
        ∃ virtual target, LatestFill updates address kind virtual target region ∧
          virtual.toNat / 4096 = address.toNat / 4096 ∧
          physical.toNat = target.toNat / 4096 * 4096 + address.toNat % 4096 ∧
          region.range.contains physical = true) ∧
      (empty.applyAll (updates.filter (Update.concerns kind))).lookup address kind =
        (empty.applyAll updates).lookup address kind := by
  refine ⟨fun physical region => ?_, ?_⟩
  · rw [lookup_eq_some_iff]
    constructor
    · rintro ⟨entry, kept, own, rfl, rfl, inside⟩
      obtain ⟨virtual, target, latest, ownPage, physicalPage⟩ := get_applyAll_eq_some_iff.1 kept
      refine ⟨virtual, target, latest, pageOf_eq_iff.1 (ownPage.symm.trans own), ?_, inside⟩
      rw [physicalPage, toNat_pageAddress]
    · rintro ⟨virtual, target, latest, samePage, place, inside⟩
      refine ⟨⟨pageOf virtual, pageOf target, region⟩,
        get_applyAll_eq_some_iff.2 ⟨virtual, target, latest, rfl, rfl⟩,
        pageOf_eq_iff.2 samePage, rfl, BitVec.eq_of_toNat_eq ?_, inside⟩
      rw [place, toNat_pageAddress]
  · unfold lookup
    rw [table_applyAll_filter rfl]

/-- An insert for another device spares a place that one for main memory takes over. -/
example :
    let memory : Region := ⟨0, ⟨0x80000000, 0x8000FFFF, by decide⟩, .memory⟩
    let device : Region := ⟨1, ⟨0x10000000, 0x10000FFF, by decide⟩, .io⟩
    let inserts : List Update :=
      [.insert 0x00401234 0x80003234 memory .load, .insert 0x00501000 0x10000000 device .load]
    let later : Update := .insert 0x00501000 0x80004000 memory .load
    (empty.applyAll inserts).lookup 0x00401FFC .load = some (0x80003FFC, memory) ∧
      (empty.applyAll (inserts ++ [later])).lookup 0x00401FFC .load = none := by
  decide

end Tlb

end Rv32
