import Rv32.Bus
import Rv32.Trap

/-!
# Translation caches

A `Tlb` keeps translations to pages of main memory, in one direct-mapped table for each kind of
access. `Tlb.lookup` answers only if the cached region contains the translated address, because a
page may lie in memory with a part of it only. Translations to other devices are never kept.
-/

namespace Rv32

/-- The number of a virtual or physical page. -/
abbrev PageNumber := BitVec 20

/-- The page of an address. -/
def pageOf (address : Word) : PageNumber := address.extractLsb' 12 20

/-- The offset of an address in its page. -/
def pageOffset (address : Word) : BitVec 12 := address.setWidth 12

/-- The address at an offset in a page. -/
def pageAddress (page : PageNumber) (offset : BitVec 12) : Word := page ++ offset

/-- A cached translation of one virtual page. -/
structure TlbEntry where
  virtualPage : PageNumber
  physicalPage : PageNumber
  region : Region
deriving DecidableEq, Repr

/-- The number of entries in each table. -/
def tlbSize : Nat := 256

/-- One table, indexed by the low bits of the virtual page. -/
abbrev TlbTable := Vector (Option TlbEntry) tlbSize

namespace TlbTable

/-- A table without entries. -/
def empty : TlbTable := Vector.replicate tlbSize none

/-- The place of a page in a table. -/
def index (page : PageNumber) : Fin tlbSize := (page.setWidth 8).toFin

def get (table : TlbTable) (page : PageNumber) : Option TlbEntry := table[index page]

def set (table : TlbTable) (page : PageNumber) (entry : TlbEntry) : TlbTable :=
  Vector.set table (index page).val (some entry) (index page).isLt

@[simp]
theorem get_empty (page : PageNumber) : empty.get page = none := by
  simp [get, empty]

/-- A new entry takes the place of all pages with its index and leaves the others alone. -/
theorem get_set (table : TlbTable) (page other : PageNumber) (entry : TlbEntry) :
    (table.set page entry).get other =
      if index page = index other then some entry else table.get other := by
  simp only [get, set, Fin.getElem_fin, Vector.getElem_set, Fin.ext_iff]

end TlbTable

/-- The tables for the three kinds of access. -/
structure Tlb where
  fetch : TlbTable
  load : TlbTable
  store : TlbTable
deriving DecidableEq

namespace Tlb

/-- Caches without entries. -/
def empty : Tlb := ⟨.empty, .empty, .empty⟩

instance : Inhabited Tlb := ⟨empty⟩

/-- The table for a kind of access. -/
def table (tlb : Tlb) (kind : AccessKind) : TlbTable :=
  match kind with
  | .fetch => tlb.fetch
  | .load => tlb.load
  | .store => tlb.store

/-- The caches with another table for a kind of access. -/
def withTable (tlb : Tlb) (kind : AccessKind) (table : TlbTable) : Tlb :=
  match kind with
  | .fetch => { tlb with fetch := table }
  | .load => { tlb with load := table }
  | .store => { tlb with store := table }

/-- The cached physical address of a virtual one, and the region it lies in. -/
def lookup (tlb : Tlb) (address : Word) (kind : AccessKind) : Option (Word × Region) :=
  match (tlb.table kind).get (pageOf address) with
  | some entry =>
    let physical := pageAddress entry.physicalPage (pageOffset address)
    if entry.virtualPage = pageOf address ∧ entry.region.range.contains physical = true then
      some (physical, entry.region)
    else none
  | none => none

/-- Keep a translation, if it leads to main memory. -/
def insert (tlb : Tlb) (address physical : Word) (region : Region) (kind : AccessKind) : Tlb :=
  if region.isMemory then
    tlb.withTable kind
      ((tlb.table kind).set (pageOf address) ⟨pageOf address, pageOf physical, region⟩)
  else tlb

/-- Forget all translations. -/
def flush (_ : Tlb) : Tlb := empty

@[simp]
theorem table_empty (kind : AccessKind) : empty.table kind = .empty := by
  cases kind <;> rfl

@[simp]
theorem table_flush (tlb : Tlb) (kind : AccessKind) : tlb.flush.table kind = .empty :=
  table_empty kind

@[simp]
theorem table_withTable_self (tlb : Tlb) (kind : AccessKind) (table : TlbTable) :
    (tlb.withTable kind table).table kind = table := by
  cases kind <;> rfl

theorem table_withTable_of_ne (tlb : Tlb) {kind other : AccessKind} (table : TlbTable)
    (different : other ≠ kind) : (tlb.withTable kind table).table other = tlb.table other := by
  cases kind <;> cases other <;> first | rfl | exact absurd rfl different

/-- An insert changes one table, and none unless the translation leads to main memory. -/
theorem table_insert (tlb : Tlb) (address physical : Word) (region : Region)
    (kind other : AccessKind) :
    (tlb.insert address physical region kind).table other =
      if kind = other ∧ region.isMemory = true then
        (tlb.table other).set (pageOf address) ⟨pageOf address, pageOf physical, region⟩
      else tlb.table other := by
  unfold insert
  by_cases isMemory : region.isMemory = true
  · by_cases same : kind = other
    · subst same
      rw [if_pos isMemory, if_pos ⟨rfl, isMemory⟩, table_withTable_self]
    · rw [if_pos isMemory, if_neg fun both => same both.1,
        table_withTable_of_ne _ _ (Ne.symm same)]
  · rw [if_neg isMemory, if_neg fun both => isMemory both.2]

/-- A cached translation is served to addresses of its page, as far as they lead into its region. -/
theorem lookup_eq_some_iff {tlb : Tlb} {address physical : Word} {kind : AccessKind}
    {region : Region} :
    tlb.lookup address kind = some (physical, region) ↔
      ∃ entry, (tlb.table kind).get (pageOf address) = some entry ∧
        entry.virtualPage = pageOf address ∧ entry.region = region ∧
        physical = pageAddress entry.physicalPage (pageOffset address) ∧
        region.range.contains physical = true := by
  unfold lookup
  constructor
  · intro hit
    split at hit
    · rename_i entry kept
      dsimp only at hit
      split at hit
      · rename_i serves
        cases hit
        exact ⟨entry, kept, serves.1, rfl, rfl, serves.2⟩
      · cases hit
    · cases hit
  · rintro ⟨entry, kept, own, rfl, rfl, inside⟩
    rw [kept]
    exact if_pos ⟨own, inside⟩

@[simp]
theorem lookup_empty (address : Word) (kind : AccessKind) : empty.lookup address kind = none := by
  simp [lookup]

end Tlb

end Rv32
