import Rv32.Address.Map

/-!
# Lookup in address maps

The search for an address finds the entry whose range contains it, and inserting an entry keeps the
others and adds this one.
-/

namespace Rv32

namespace AddressMap

variable {α : Type} {address : Word} {entry : AddressRange × α}
  {entries : List (AddressRange × α)}

theorem mem_of_findEntry (found : findEntry address entries = some entry) :
    entry ∈ entries ∧ entry.1.contains address = true := by
  induction entries with
  | nil => cases found
  | cons head rest ih =>
      unfold findEntry at found
      split at found
      · cases found
      · rename_i notBelow
        split at found
        · rename_i notAbove
          cases found
          exact ⟨List.mem_cons_self,
            AddressRange.contains_iff.2 ⟨BitVec.not_lt.1 notBelow, notAbove⟩⟩
        · obtain ⟨member, contains⟩ := ih found
          exact ⟨List.mem_cons_of_mem head member, contains⟩

/-- The search goes past the ranges below an address and finds the one that contains it. -/
theorem findEntry_of_mem
    (ordered : entries.Pairwise fun low high => low.1.last < high.1.first)
    (member : entry ∈ entries) (contains : entry.1.contains address = true) :
    findEntry address entries = some entry := by
  obtain ⟨above, below⟩ := AddressRange.contains_iff.1 contains
  induction entries with
  | nil => cases member
  | cons head rest ih =>
      obtain ⟨headBelow, restOrdered⟩ := List.pairwise_cons.1 ordered
      unfold findEntry
      rcases List.mem_cons.1 member with rfl | inRest
      · rw [if_neg (BitVec.not_lt.2 above), if_pos below]
      · have beyond := headBelow entry inRest
        have passed : head.1.last < address := by
          rw [BitVec.lt_def] at beyond ⊢
          rw [BitVec.le_def] at above
          exact Nat.lt_of_lt_of_le beyond above
        have started : ¬ address < head.1.first :=
          fun before => absurd (BitVec.lt_trans passed before)
            (BitVec.not_lt.2 head.1.first_le_last)
        rw [if_neg started, if_neg (BitVec.not_le.2 passed)]
        exact ih restOrdered inRest

theorem entry?_eq_some_iff {map : AddressMap α} :
    map.entry? address = some entry ↔
      entry ∈ map.entries ∧ entry.1.contains address = true :=
  ⟨mem_of_findEntry, fun both => findEntry_of_mem map.ordered both.1 both.2⟩

/-- An address lies in one range only. -/
theorem eq_of_contains {map : AddressMap α} {other : AddressRange × α}
    (member : entry ∈ map.entries) (memberOther : other ∈ map.entries)
    (contains : entry.1.contains address = true)
    (containsOther : other.1.contains address = true) : entry = other := by
  have found := entry?_eq_some_iff.2 ⟨member, contains⟩
  exact Option.some.inj (found.symm.trans (entry?_eq_some_iff.2 ⟨memberOther, containsOther⟩))

theorem perm_of_insertEntry {others : List (AddressRange × α)}
    (inserted : insertEntry entry entries = some others) : others.Perm (entry :: entries) := by
  induction entries generalizing others with
  | nil =>
      cases inserted
      exact .refl _
  | cons head rest ih =>
      unfold insertEntry at inserted
      split at inserted
      · obtain ⟨tail, tailInserted, rfl⟩ := Option.map_eq_some_iff.1 inserted
        exact ((ih tailInserted).cons head).trans (.swap entry head rest)
      · split at inserted
        · cases inserted
          exact .refl _
        · cases inserted

/-- A map into which a range was inserted has the old entries and the new one. -/
theorem perm_of_insert {map after : AddressMap α} {range : AddressRange} {value : α}
    (inserted : map.insert range value = .ok after) :
    after.entries.Perm ((range, value) :: map.entries) := by
  unfold insert at inserted
  split at inserted
  · rename_i entries found
    cases inserted
    exact perm_of_insertEntry found
  · cases inserted

theorem mem_insert {map after : AddressMap α} {range : AddressRange} {value : α}
    (inserted : map.insert range value = .ok after) {other : AddressRange × α} :
    other ∈ after.entries ↔ other = (range, value) ∨ other ∈ map.entries :=
  (perm_of_insert inserted).mem_iff.trans List.mem_cons

end AddressMap

end Rv32
