import Rv32.Address.Range

/-!
# Address maps

An address map assigns values to disjoint ranges of addresses. Its entries are kept in ascending
order, so an address is looked for from below and given up at the first range beyond it.

`AddressMap.insert` adds one range and `AddressMap.ofList` takes a whole list at once; both refuse
ranges that share an address.
-/

namespace Rv32

/-- Refusal of a range that shares an address with one already mapped. -/
structure OverlappingRange where
  range : AddressRange
deriving DecidableEq, Repr

namespace OverlappingRange

def message (error : OverlappingRange) : String :=
  s!"address range {error.range.text} overlaps with previously added address range"

end OverlappingRange

/-- Values on disjoint ranges of addresses, in ascending order. -/
structure AddressMap (α : Type) where
  entries : List (AddressRange × α)
  ordered : entries.Pairwise fun low high => low.1.last < high.1.first

namespace AddressMap

variable {α : Type}

/-- The map without entries. -/
def empty : AddressMap α := ⟨[], .nil⟩

instance : Inhabited (AddressMap α) := ⟨empty⟩

/-- The entry whose range contains `address`, in an ascending list of entries. -/
def findEntry (address : Word) : List (AddressRange × α) → Option (AddressRange × α)
  | [] => none
  | entry :: rest =>
    if address < entry.1.first then none
    else if address ≤ entry.1.last then some entry
    else findEntry address rest

/-- The range that contains `address`, with its value. -/
def entry? (map : AddressMap α) (address : Word) : Option (AddressRange × α) :=
  findEntry address map.entries

/-- The value of the range that contains `address`. -/
def value? (map : AddressMap α) (address : Word) : Option α :=
  (map.entry? address).map Prod.snd

/-- The ascending list with one more entry, if that entry lies in a gap of it. -/
def insertEntry (entry : AddressRange × α) :
    List (AddressRange × α) → Option (List (AddressRange × α))
  | [] => some [entry]
  | head :: rest =>
    if head.1.last < entry.1.first then (insertEntry entry rest).map (head :: ·)
    else if entry.1.last < head.1.first then some (entry :: head :: rest)
    else none

theorem mem_of_insertEntry {entry : AddressRange × α} {entries result : List (AddressRange × α)}
    (inserted : insertEntry entry entries = some result) {other : AddressRange × α}
    (member : other ∈ result) : other = entry ∨ other ∈ entries := by
  induction entries generalizing result with
  | nil =>
    simp only [insertEntry, Option.some.injEq] at inserted
    subst inserted
    exact .inl (List.mem_singleton.1 member)
  | cons head rest ih =>
    simp only [insertEntry] at inserted
    split at inserted
    · obtain ⟨tail, tailInserted, rfl⟩ := Option.map_eq_some_iff.1 inserted
      rcases List.mem_cons.1 member with rfl | inTail
      · exact .inr List.mem_cons_self
      · exact (ih tailInserted inTail).imp_right (List.mem_cons_of_mem head)
    · split at inserted
      · cases inserted
        exact List.mem_cons.1 member
      · cases inserted

theorem ordered_of_insertEntry {entry : AddressRange × α}
    {entries result : List (AddressRange × α)}
    (ordered : entries.Pairwise fun low high => low.1.last < high.1.first)
    (inserted : insertEntry entry entries = some result) :
    result.Pairwise fun low high => low.1.last < high.1.first := by
  induction entries generalizing result with
  | nil =>
    simp only [insertEntry, Option.some.injEq] at inserted
    subst inserted
    exact List.pairwise_singleton ..
  | cons head rest ih =>
    obtain ⟨headBelow, restOrdered⟩ := List.pairwise_cons.1 ordered
    simp only [insertEntry] at inserted
    split at inserted
    · rename_i below
      obtain ⟨tail, tailInserted, rfl⟩ := Option.map_eq_some_iff.1 inserted
      refine List.pairwise_cons.2 ⟨fun other member => ?_, ih restOrdered tailInserted⟩
      rcases mem_of_insertEntry tailInserted member with rfl | inRest
      · exact below
      · exact headBelow other inRest
    · split at inserted
      · rename_i above
        cases inserted
        refine List.pairwise_cons.2 ⟨fun other member => ?_, ordered⟩
        rcases List.mem_cons.1 member with rfl | inRest
        · exact above
        · have := headBelow other inRest
          have := head.1.first_le_last
          simp only [BitVec.lt_def, BitVec.le_def] at *
          omega
      · cases inserted

/-- Map one more range, which must not share an address with a mapped one. -/
def insert (map : AddressMap α) (range : AddressRange) (value : α) :
    Except OverlappingRange (AddressMap α) :=
  match inserted : insertEntry (range, value) map.entries with
  | some entries => .ok ⟨entries, ordered_of_insertEntry map.ordered inserted⟩
  | none => .error ⟨range⟩

/-- The first range of a list that does not start beyond the one before it. -/
def firstOverlap : List (AddressRange × α) → Option AddressRange
  | low :: high :: rest =>
    if high.1.first ≤ low.1.last then some high.1 else firstOverlap (high :: rest)
  | _ => none

theorem ordered_of_firstOverlap {entries : List (AddressRange × α)}
    (apart : firstOverlap entries = none) :
    entries.Pairwise fun low high => low.1.last < high.1.first := by
  induction entries with
  | nil => exact .nil
  | cons low tail ih =>
    match tail with
    | [] => exact List.pairwise_singleton ..
    | high :: rest =>
      simp only [firstOverlap] at apart
      split at apart
      · cases apart
      · rename_i beyond
        have tailOrdered := ih apart
        refine List.pairwise_cons.2 ⟨fun other member => ?_, tailOrdered⟩
        have lowHigh : low.1.last < high.1.first := BitVec.not_le.1 beyond
        rcases List.mem_cons.1 member with rfl | inRest
        · exact lowHigh
        · have highOther := (List.pairwise_cons.1 tailOrdered).1 other inRest
          have := high.1.first_le_last
          simp only [BitVec.lt_def, BitVec.le_def] at *
          omega

/-- The map of all `ranges`, given in any order. Of the ranges in ascending order, the first one
that does not start beyond its predecessor is refused. -/
def ofList (ranges : List (AddressRange × α)) : Except OverlappingRange (AddressMap α) :=
  let sorted := ranges.mergeSort fun low high => decide (low.1.first ≤ high.1.first)
  match apart : firstOverlap sorted with
  | some range => .error ⟨range⟩
  | none => .ok ⟨sorted, ordered_of_firstOverlap apart⟩

@[simp]
theorem entries_empty : (empty : AddressMap α).entries = [] := rfl

end AddressMap

end Rv32
