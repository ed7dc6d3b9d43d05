import Mathlib.Data.List.Basic
import Rv32.Proofs.AddressMap

/-!
# Maps of disjoint ranges

A list of entries can be made into a map exactly if no two of its ranges share an address
(`AddressRange.Meets`), and there is only one such map, because disjoint ranges can be in ascending
order in one way only (`AddressMap.eq_of_perm`). So it does not matter in which order the entries
are given, nor whether they are sorted at once or inserted one after the other
(`AddressMap.ofList_agrees_insertAll`).
-/

namespace Rv32

/-! ## Ranges that share an address -/

namespace AddressRange

/-- Some address lies in both ranges. -/
def Meets (range other : AddressRange) : Prop :=
  ∃ address, range.contains address = true ∧ other.contains address = true

variable {range other : AddressRange}

theorem Meets.symm (meets : range.Meets other) : other.Meets range := by
  obtain ⟨address, inRange, inOther⟩ := meets
  exact ⟨address, inOther, inRange⟩

/-- Ranges that overlap share the higher one of their first addresses. -/
theorem overlaps_iff_meets : range.overlaps other = true ↔ range.Meets other := by
  have rangeOrdered := range.first_le_last
  have otherOrdered := other.first_le_last
  unfold overlaps
  rw [Bool.and_eq_true, decide_eq_true_eq, decide_eq_true_eq]
  simp only [Meets, contains_iff, BitVec.le_def] at *
  constructor
  · rintro ⟨starts, ends⟩
    by_cases higher : range.first.toNat ≤ other.first.toNat
    · exact ⟨other.first, ⟨higher, ends⟩, Nat.le_refl _, otherOrdered⟩
    · exact ⟨range.first, ⟨Nat.le_refl _, rangeOrdered⟩, by omega, starts⟩
  · rintro ⟨address, inRange, inOther⟩
    omega

instance (range other : AddressRange) : Decidable (range.Meets other) :=
  decidable_of_iff _ overlaps_iff_meets

theorem meets_iff : range.Meets other ↔ range.first ≤ other.last ∧ other.first ≤ range.last := by
  rw [← overlaps_iff_meets, overlaps, Bool.and_eq_true, decide_eq_true_eq, decide_eq_true_eq]

/-- Of two ranges that share no address one lies below the other. -/
theorem not_meets_iff :
    ¬ range.Meets other ↔ range.last < other.first ∨ other.last < range.first := by
  rw [meets_iff, Decidable.not_and_iff_not_or_not, BitVec.not_le, BitVec.not_le]
  exact or_comm

end AddressRange

namespace AddressMap

variable {α : Type} {entries others : List (AddressRange × α)} {map after : AddressMap α}
  {range : AddressRange} {value : α}

/-! ## Ascending and disjoint entries -/

/-- Every range ends before the next one starts. -/
def Ascending (entries : List (AddressRange × α)) : Prop :=
  entries.Pairwise fun low high => low.1.last < high.1.first

/-- No two ranges share an address. -/
def Disjoint (entries : List (AddressRange × α)) : Prop :=
  entries.Pairwise fun entry other => ¬ entry.1.Meets other.1

theorem Ascending.disjoint (ascending : Ascending entries) : Disjoint entries :=
  ascending.imp fun below => AddressRange.not_meets_iff.2 (.inl below)

theorem Disjoint.perm_iff (perm : entries.Perm others) : Disjoint entries ↔ Disjoint others :=
  perm.pairwise_iff fun apart meets => apart meets.symm

/-- Disjoint ranges ascend if their first addresses do. -/
theorem Disjoint.ascending (disjoint : Disjoint entries)
    (sorted : entries.Pairwise fun low high => low.1.first ≤ high.1.first) :
    Ascending entries := by
  refine disjoint.imp₂ (fun low high apart starts => ?_) sorted
  have ordered := high.1.first_le_last
  rcases AddressRange.not_meets_iff.1 apart with below | above
  · exact below
  · simp only [BitVec.le_def, BitVec.lt_def] at *
    omega

theorem Ascending.sorted (ascending : Ascending entries) :
    entries.Pairwise fun low high => low.1.first < high.1.first := by
  refine ascending.imp fun {low high} below => ?_
  have ordered := low.1.first_le_last
  simp only [BitVec.le_def, BitVec.lt_def] at *
  omega

/-- Entries ascend in one order only. -/
theorem Ascending.eq_of_perm (left : Ascending entries) (right : Ascending others)
    (perm : entries.Perm others) : entries = others := by
  refine List.Perm.eq_of_pairwise (fun low high _ _ below above => ?_) left right perm
  have lowOrdered := low.1.first_le_last
  have highOrdered := high.1.first_le_last
  simp only [BitVec.le_def, BitVec.lt_def] at *
  omega

theorem eq_of_perm {other : AddressMap α} (perm : map.entries.Perm other.entries) :
    map = other := by
  have same := Ascending.eq_of_perm map.ordered other.ordered perm
  cases map
  cases other
  cases same
  rfl

/-! ## One insert -/

/-- What the search for a gap comes to first, a range that it does not lie beyond, decides: either
the entry belongs in front of it or the two share an address. -/
theorem insertEntry_eq_none_iff {entry : AddressRange × α} (ascending : Ascending entries) :
    insertEntry entry entries = none ↔ ∃ other ∈ entries, entry.1.Meets other.1 := by
  induction entries with
  | nil =>
      refine iff_of_false (Option.some_ne_none _) ?_
      rintro ⟨other, member, -⟩
      exact List.not_mem_nil member
  | cons head rest ih =>
      obtain ⟨headBelow, restAscending⟩ := List.pairwise_cons.1 ascending
      have ordered := head.1.first_le_last
      have entryOrdered := entry.1.first_le_last
      unfold insertEntry
      rw [List.exists_mem_cons_iff]
      by_cases beyond : head.1.last < entry.1.first
      · have apart : ¬ entry.1.Meets head.1 := AddressRange.not_meets_iff.2 (.inr beyond)
        rw [if_pos beyond, Option.map_eq_none_iff, ih restAscending]
        exact (or_iff_right apart).symm
      · rw [if_neg beyond]
        by_cases before : entry.1.last < head.1.first
        · rw [if_pos before]
          refine iff_of_false (Option.some_ne_none _) ?_
          rintro (meets | ⟨other, member, meets⟩)
          · exact AddressRange.not_meets_iff.2 (.inl before) meets
          · have later := headBelow other member
            rw [AddressRange.meets_iff] at meets
            simp only [BitVec.le_def, BitVec.lt_def] at *
            omega
        · rw [if_neg before]
          refine iff_of_true rfl (.inl ?_)
          exact AddressRange.meets_iff.2 ⟨BitVec.not_lt.1 beyond, BitVec.not_lt.1 before⟩

/-- An insert is refused exactly if its range shares an address with a mapped one. -/
theorem insert_eq_error_iff {refusal : OverlappingRange} :
    map.insert range value = .error refusal ↔
      refusal = ⟨range⟩ ∧ ∃ other ∈ map.entries, range.Meets other.1 := by
  have refused : insertEntry (range, value) map.entries = none ↔
      ∃ other ∈ map.entries, range.Meets other.1 := insertEntry_eq_none_iff map.ordered
  unfold insert
  split
  · rename_i result inserted
    refine iff_of_false nofun fun both => ?_
    rw [refused.2 both.2] at inserted
    cases inserted
  · rename_i inserted
    rw [Except.error.injEq]
    exact ⟨fun same => ⟨same.symm, refused.1 inserted⟩, fun both => both.1.symm⟩

/-- An insert that is granted adds its entry, and there is no other way to add it. -/
theorem insert_eq_ok_iff :
    map.insert range value = .ok after ↔ after.entries.Perm ((range, value) :: map.entries) := by
  constructor
  · exact perm_of_insert
  · intro perm
    have disjoint := (Disjoint.perm_iff perm).1 (Ascending.disjoint after.ordered)
    rcases inserted : map.insert range value with refusal | other
    · obtain ⟨-, mapped, member, meets⟩ := insert_eq_error_iff.1 inserted
      exact absurd meets ((List.pairwise_cons.1 disjoint).1 mapped member)
    · exact congrArg Except.ok (eq_of_perm ((perm_of_insert inserted).trans perm.symm))

/-! ## Whole lists -/

/-- The map with all of these entries inserted one after the other, if no insert is refused. -/
def insertAll (map : AddressMap α) (entries : List (AddressRange × α)) :
    Except OverlappingRange (AddressMap α) :=
  entries.foldlM (fun map entry => map.insert entry.1 entry.2) map

theorem insertAll_eq_ok_iff :
    map.insertAll entries = .ok after ↔ after.entries.Perm (entries ++ map.entries) := by
  unfold insertAll
  induction entries generalizing map with
  | nil =>
      rw [List.foldlM_nil, List.nil_append]
      constructor
      · intro same
        cases same
        exact .refl _
      · intro perm
        exact congrArg Except.ok (eq_of_perm perm.symm)
  | cons entry rest ih =>
      rw [List.foldlM_cons]
      rcases inserted : map.insert entry.1 entry.2 with refusal | next
      · refine iff_of_false nofun fun perm => ?_
        obtain ⟨-, mapped, member, meets⟩ := insert_eq_error_iff.1 inserted
        have disjoint := (Disjoint.perm_iff perm).1 (Ascending.disjoint after.ordered)
        exact (List.pairwise_cons.1 disjoint).1 mapped (List.mem_append_right rest member) meets
      · have added := insert_eq_ok_iff.1 inserted
        have moved : (rest ++ next.entries).Perm (entry :: rest ++ map.entries) :=
          (added.append_left rest).trans List.perm_middle
        refine ih.trans ⟨fun perm => perm.trans moved, fun perm => perm.trans moved.symm⟩

theorem firstOverlap_of_ascending (ascending : Ascending entries) :
    firstOverlap entries = none := by
  induction entries with
  | nil => rfl
  | cons low tail ih =>
      obtain ⟨below, tailAscending⟩ := List.pairwise_cons.1 ascending
      cases tail with
      | nil => rfl
      | cons high rest =>
          unfold firstOverlap
          rw [if_neg (BitVec.not_le.2 (below high List.mem_cons_self))]
          exact ih tailAscending

/-- The entries by ascending first addresses. -/
theorem sorted_mergeSort (entries : List (AddressRange × α)) :
    (entries.mergeSort fun low high => decide (low.1.first ≤ high.1.first)).Pairwise
      fun low high => low.1.first ≤ high.1.first := by
  refine (List.pairwise_mergeSort ?_ ?_ entries).imp of_decide_eq_true
  · intro low middle high left right
    simp only [decide_eq_true_eq, BitVec.le_def] at *
    omega
  · intro low high
    simp only [Bool.or_eq_true, decide_eq_true_eq, BitVec.le_def]
    omega

theorem ofList_eq_ok_iff : ofList entries = .ok map ↔ map.entries.Perm entries := by
  have perm := List.mergeSort_perm entries fun low high => decide (low.1.first ≤ high.1.first)
  unfold ofList
  dsimp only
  constructor
  · intro built
    split at built
    · cases built
    · cases built
      exact perm
  · intro same
    have disjoint := (Disjoint.perm_iff (same.trans perm.symm)).1 (Ascending.disjoint map.ordered)
    have apart := firstOverlap_of_ascending (disjoint.ascending (sorted_mergeSort entries))
    split
    · rename_i range overlap
      rw [apart] at overlap
      cases overlap
    · exact congrArg Except.ok (eq_of_perm (perm.trans same.symm))

/-- Any disjoint entries can be made into a map. -/
theorem exists_perm_iff : (∃ map : AddressMap α, map.entries.Perm entries) ↔ Disjoint entries := by
  constructor
  · rintro ⟨map, perm⟩
    exact (Disjoint.perm_iff perm).1 (Ascending.disjoint map.ordered)
  · intro disjoint
    have perm := List.mergeSort_perm entries fun low high => decide (low.1.first ≤ high.1.first)
    have sortedDisjoint := (Disjoint.perm_iff perm).2 disjoint
    exact ⟨⟨_, sortedDisjoint.ascending (sorted_mergeSort entries)⟩, perm⟩

/-- A list is accepted as a whole exactly if its ranges are disjoint, and exactly if all of its
entries can be inserted one after the other. The two maps have the same entries in the same order,
which are those of the list, and find the same for every address. -/
theorem ofList_agrees_insertAll (entries : List (AddressRange × α)) :
    ((∃ map, ofList entries = .ok map) ↔
      entries.Pairwise fun entry other => ¬ entry.1.Meets other.1) ∧
    ((∃ map, empty.insertAll entries = .ok map) ↔
      entries.Pairwise fun entry other => ¬ entry.1.Meets other.1) ∧
    ∀ map other, ofList entries = .ok map → empty.insertAll entries = .ok other →
      other.entries = map.entries ∧ map.entries.Perm entries ∧
      ∀ address, other.entry? address = map.entry? address ∧
        other.value? address = map.value? address ∧
        ∀ entry, map.entry? address = some entry ↔
          entry ∈ entries ∧ entry.1.contains address = true := by
  have inserted (map : AddressMap α) :
      empty.insertAll entries = .ok map ↔ map.entries.Perm entries := by
    rw [insertAll_eq_ok_iff, entries_empty, List.append_nil]
  refine ⟨?_, ?_, fun map other built insertedOther => ?_⟩
  · simp only [ofList_eq_ok_iff]
    exact exists_perm_iff
  · simp only [inserted]
    exact exists_perm_iff
  · have perm := ofList_eq_ok_iff.1 built
    have same : other = map := eq_of_perm (((inserted other).1 insertedOther).trans perm.symm)
    subst same
    refine ⟨rfl, perm, fun address => ⟨rfl, rfl, fun entry => ?_⟩⟩
    rw [entry?_eq_some_iff, perm.mem_iff]

/-- Ranges that touch each other or end where the address space ends, in no particular order. -/
def touchingRanges : List (AddressRange × Nat) :=
  [(⟨0x10, 0x1F, by decide⟩, 1), (⟨0xFFFFFFFF, 0xFFFFFFFF, by decide⟩, 2),
    (⟨0, 0xF, by decide⟩, 0)]

theorem touchingRanges_agree :
    ∃ map other, ofList touchingRanges = .ok map ∧ empty.insertAll touchingRanges = .ok other ∧
      other.entries = map.entries ∧ map.entry? 0xF = some (⟨0, 0xF, by decide⟩, 0) := by
  have disjoint : touchingRanges.Pairwise fun entry other => ¬ entry.1.Meets other.1 := by decide
  obtain ⟨builds, inserts, agree⟩ := ofList_agrees_insertAll touchingRanges
  obtain ⟨map, built⟩ := builds.2 disjoint
  obtain ⟨other, inserted⟩ := inserts.2 disjoint
  obtain ⟨same, -, finds⟩ := agree map other built inserted
  exact ⟨map, other, built, inserted, same, ((finds 0xF).2.2 _).2 ⟨by decide, by decide⟩⟩

end AddressMap

end Rv32
