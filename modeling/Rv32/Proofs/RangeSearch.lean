import Rv32.Proofs.RangeMaps

/-!
# Binary search among ranges

Because the entries of a map ascend, an address can be looked for by halving (`bisect`), and an
entry that is inserted at the place where its range starts can only overlap with the entries next to
it (`AddressMap.insertInPlace`). Both find what `AddressMap.entry?` and `AddressMap.insert` find.
They work on a bare list, so that this list stays in order is a fact about every sequence of inserts
(`AddressMap.inserts_exact`).
-/

namespace Rv32

/-! ## Binary search -/

/-- Where a search among items ends: at one of them, or at the gap in front of the item with this
number. -/
inductive Landing where
  | item (place : Nat)
  | gap (place : Nat)
deriving DecidableEq, Repr

/-- The landing among items that have `count` more in front of them. -/
def Landing.shift (count : Nat) : Landing → Landing
  | .item place => .item (count + place)
  | .gap place => .gap (count + place)

section Search

variable {ε : Type} {side : ε → Ordering} {items low high : List ε} {landing : Landing}

/-- Search by halving. On which side of what is looked for an item lies is given by `side`: before
it (`lt`), behind it (`gt`), or neither. -/
def bisect (side : ε → Ordering) (items : List ε) : Landing :=
  match _rest : items.drop (items.length / 2) with
  | [] => .gap 0
  | middle :: above =>
    match side middle with
    | .eq => .item (items.length / 2)
    | .gt => bisect side (items.take (items.length / 2))
    | .lt => (bisect side above).shift (items.length / 2 + 1)
termination_by items.length
decreasing_by
  all_goals
    have parts := congrArg List.length _rest
    rw [List.length_drop, List.length_cons] at parts
  · rw [List.length_take]
    omega
  · omega

/-- The search ended at a match, or between the items before what was looked for and those behind
it. -/
inductive Landing.Fits (side : ε → Ordering) (items : List ε) : Landing → Prop
  | item {place : Nat} {found : ε} :
    items[place]? = some found → side found = .eq → Fits side items (.item place)
  | gap {place : Nat} :
    place ≤ items.length → (∀ item ∈ items.take place, side item = .lt) →
    (∀ item ∈ items.drop place, side item = .gt) → Fits side items (.gap place)

theorem Landing.Fits.append_right (fits : landing.Fits side low) {high : List ε}
    (behind : ∀ item ∈ high, side item = .gt) : landing.Fits side (low ++ high) := by
  cases fits with
  | @item place found isItem matching =>
      have inside := (List.getElem?_eq_some_iff.1 isItem).1
      exact .item ((List.getElem?_append_left inside).trans isItem) matching
  | @gap place inside lower upper =>
      refine .gap (by rw [List.length_append]; omega) ?_ ?_
      · rw [List.take_append_of_le_length inside]
        exact lower
      · rw [List.drop_append_of_le_length inside]
        intro item member
        exact (List.mem_append.1 member).elim (upper item) (behind item)

theorem Landing.Fits.append_left (fits : landing.Fits side high) {low : List ε}
    (before : ∀ item ∈ low, side item = .lt) :
    (landing.shift low.length).Fits side (low ++ high) := by
  cases fits with
  | @item place found isItem matching =>
      refine .item ?_ matching
      rw [List.getElem?_append_right (Nat.le_add_right ..), Nat.add_sub_cancel_left]
      exact isItem
  | @gap place inside lower upper =>
      refine .gap (by rw [List.length_append]; omega) ?_ ?_
      · rw [List.take_length_add_append]
        intro item member
        exact (List.mem_append.1 member).elim (before item) (lower item)
      · rw [List.drop_length_add_append]
        exact upper

/-- The search is right on items of which those before what is looked for come first and those
behind it last. -/
theorem bisect_fits
    (divided : items.Pairwise fun low high =>
      (side low = .gt → side high = .gt) ∧ (side high = .lt → side low = .lt)) :
    (bisect side items).Fits side items := by
  fun_induction bisect side items with
  | case1 items nothing =>
      have short := List.drop_eq_nil_iff.1 nothing
      obtain rfl : items = [] := List.length_eq_zero_iff.1 (by omega)
      exact .gap (Nat.zero_le _) nofun nofun
  | case2 items middle above rest matching =>
      have isItem : items[items.length / 2]? = some middle := by
        rw [← List.head?_drop, rest]
        rfl
      exact .item isItem matching
  | case3 items middle above rest behind ih =>
      have parts : items.take (items.length / 2) ++ middle :: above = items := by
        rw [← rest, List.take_append_drop]
      rw [← parts] at divided
      obtain ⟨dividedBelow, dividedRest, -⟩ := List.pairwise_append.1 divided
      have allBehind : ∀ item ∈ middle :: above, side item = .gt := by
        intro item member
        rcases List.mem_cons.1 member with rfl | later
        · exact behind
        · exact ((List.pairwise_cons.1 dividedRest).1 item later).1 behind
      have fits := (ih dividedBelow).append_right allBehind
      rwa [parts] at fits
  | case4 items middle above rest before ih =>
      have parts : (items.take (items.length / 2) ++ [middle]) ++ above = items := by
        rw [List.append_assoc, List.singleton_append, ← rest, List.take_append_drop]
      have count : (items.take (items.length / 2) ++ [middle]).length = items.length / 2 + 1 := by
        rw [List.length_append, List.length_take, List.length_singleton]
        omega
      rw [← parts] at divided
      obtain ⟨dividedLow, dividedAbove, -⟩ := List.pairwise_append.1 divided
      have allBefore : ∀ item ∈ items.take (items.length / 2) ++ [middle], side item = .lt := by
        intro item member
        rcases List.mem_append.1 member with earlier | last
        · have across := (List.pairwise_append.1 dividedLow).2.2
          exact (across item earlier middle List.mem_cons_self).2 before
        · rw [List.mem_singleton.1 last]
          exact before
      have fits := (ih dividedAbove).append_left allBefore
      rwa [parts, count] at fits

/-- How many items come before the first one without a property, if all items behind that one lack
it too. -/
def partitionPoint (holds : ε → Bool) (items : List ε) : Nat :=
  match bisect (fun item => if holds item then .lt else .gt) items with
  | .item place => place
  | .gap place => place

theorem partitionPoint_spec {holds : ε → Bool}
    (divided : items.Pairwise fun low high => holds high = true → holds low = true) :
    (∀ item ∈ items.take (partitionPoint holds items), holds item = true) ∧
      ∀ item ∈ items.drop (partitionPoint holds items), holds item = false := by
  have fits : (bisect (fun item => if holds item then .lt else .gt) items).Fits
      (fun item => if holds item then .lt else .gt) items := by
    refine bisect_fits (divided.imp fun {low high} earlier => ⟨fun behind => ?_, fun before => ?_⟩)
    · have lowLacks : ¬ holds low = true := fun has => by simp [has] at behind
      exact if_neg fun has => lowLacks (earlier has)
    · have highHas : holds high = true := by simpa using before
      exact if_pos (earlier highHas)
  unfold partitionPoint
  revert fits
  generalize bisect (fun item => if holds item then .lt else .gt) items = landing
  rintro (⟨isItem, matching⟩ | ⟨inside, lower, upper⟩)
  · split at matching <;> cases matching
  · exact ⟨fun item member => by simpa using lower item member,
      fun item member => by simpa using upper item member⟩

end Search

namespace AddressMap

variable {α : Type} {entries : List (AddressRange × α)} {map : AddressMap α}

/-! ## Looking for an address -/

/-- Whether a range lies before an address, contains it, or lies behind it. -/
def sideOf (address : Word) (entry : AddressRange × α) : Ordering :=
  if address < entry.1.first then .gt else if address ≤ entry.1.last then .eq else .lt

section Sides

variable {address : Word} {entry : AddressRange × α}

theorem sideOf_eq_gt_iff : sideOf address entry = .gt ↔ address < entry.1.first := by
  unfold sideOf
  split
  · exact iff_of_true rfl ‹_›
  · refine iff_of_false ?_ ‹_›
    split <;> nofun

theorem sideOf_eq_lt_iff : sideOf address entry = .lt ↔ entry.1.last < address := by
  have ordered := entry.1.first_le_last
  unfold sideOf
  split
  · rename_i behind
    refine iff_of_false nofun ?_
    simp only [BitVec.le_def, BitVec.lt_def] at *
    omega
  · rw [← BitVec.not_le]
    split
    · exact iff_of_false nofun (not_not_intro ‹_›)
    · exact iff_of_true rfl ‹_›

theorem sideOf_eq_eq_iff :
    sideOf address entry = .eq ↔ entry.1.contains address = true := by
  rw [AddressRange.contains_iff]
  unfold sideOf
  split
  · rename_i behind
    exact iff_of_false nofun fun inside => BitVec.not_lt.2 inside.1 behind
  · rename_i notBehind
    split
    · exact iff_of_true rfl ⟨BitVec.not_lt.1 notBehind, ‹_›⟩
    · exact iff_of_false nofun fun inside => absurd inside.2 ‹_›

end Sides

/-- The entry whose range contains an address, by binary search. -/
def searchEntry? (address : Word) (entries : List (AddressRange × α)) :
    Option (AddressRange × α) :=
  match bisect (sideOf address) entries with
  | .item place => entries[place]?
  | .gap _ => none

/-- The search by halving finds what the search from below finds. -/
theorem searchEntry?_eq (map : AddressMap α) (address : Word) :
    searchEntry? address map.entries = map.entry? address := by
  have fits : (bisect (sideOf address) map.entries).Fits (sideOf address) map.entries := by
    refine bisect_fits (map.ordered.imp fun {low high} below => ?_)
    have lowOrdered := low.1.first_le_last
    have highOrdered := high.1.first_le_last
    simp only [sideOf_eq_gt_iff, sideOf_eq_lt_iff, BitVec.le_def, BitVec.lt_def] at *
    omega
  unfold searchEntry?
  revert fits
  generalize bisect (sideOf address) map.entries = landing
  rintro (⟨isItem, matching⟩ | ⟨inside, lower, upper⟩)
  · rename_i place found
    exact isItem.trans (entry?_eq_some_iff.2
      ⟨List.mem_of_getElem? isItem, sideOf_eq_eq_iff.1 matching⟩).symm
  · rename_i place
    refine (Option.eq_none_iff_forall_ne_some.2 fun entry found => ?_).symm
    obtain ⟨member, contains⟩ := entry?_eq_some_iff.1 found
    have matching := sideOf_eq_eq_iff.2 contains
    rw [← List.take_append_drop place map.entries] at member
    rcases List.mem_append.1 member with before | behind
    · rw [lower entry before] at matching
      cases matching
    · rw [upper entry behind] at matching
      cases matching

/-! ## Inserting in place -/

/-- Insert an entry at the place where its range starts, unless that range overlaps with the one
before or the one behind this place. The list stays as it is if the entry is refused. -/
def insertInPlace (range : AddressRange) (value : α) (entries : List (AddressRange × α)) :
    Except OverlappingRange Unit × List (AddressRange × α) :=
  let place := partitionPoint (fun entry => entry.1.first < range.first) entries
  let below := entries.take place
  let above := entries.drop place
  if below.getLast?.any (·.1.overlaps range) || above.head?.any (·.1.overlaps range) then
    (.error ⟨range⟩, entries)
  else (.ok (), below ++ (range, value) :: above)

section InPlace

variable {range : AddressRange} {value : α} {below above : List (AddressRange × α)}

/-- Of the ranges that start below a given one the last one ends last, so if any of them meets that
one, this one does. -/
theorem getLast?_overlaps_iff (ascending : Ascending below)
    (starts : ∀ entry ∈ below, entry.1.first < range.first) :
    below.getLast?.any (·.1.overlaps range) = true ↔ ∃ entry ∈ below, range.Meets entry.1 := by
  rcases List.eq_nil_or_concat' below with rfl | ⟨earlier, last, rfl⟩
  · exact iff_of_false nofun nofun
  · rw [List.getLast?_concat, Option.any_some, AddressRange.overlaps_iff_meets]
    constructor
    · intro meets
      exact ⟨last, List.mem_append_right _ List.mem_cons_self, meets.symm⟩
    · rintro ⟨entry, member, meets⟩
      rcases List.mem_append.1 member with isEarlier | isLast
      · have endsBelow :=
          (List.pairwise_append.1 ascending).2.2 entry isEarlier last List.mem_cons_self
        have lastStarts := starts last (List.mem_append_right _ List.mem_cons_self)
        have reaches := (AddressRange.meets_iff.1 meets).1
        simp only [BitVec.le_def, BitVec.lt_def] at *
        omega
      · rw [List.mem_singleton.1 isLast] at meets
        exact meets.symm

/-- Of the ranges that do not start below a given one the first one starts first. -/
theorem head?_overlaps_iff (ascending : Ascending above)
    (starts : ∀ entry ∈ above, ¬ entry.1.first < range.first) :
    above.head?.any (·.1.overlaps range) = true ↔ ∃ entry ∈ above, range.Meets entry.1 := by
  cases above with
  | nil => exact iff_of_false nofun nofun
  | cons first later =>
      rw [List.head?_cons, Option.any_some, AddressRange.overlaps_iff_meets]
      constructor
      · intro meets
        exact ⟨first, List.mem_cons_self, meets.symm⟩
      · rintro ⟨entry, member, meets⟩
        rcases List.mem_cons.1 member with rfl | isLater
        · exact meets.symm
        · have endsBelow := (List.pairwise_cons.1 ascending).1 entry isLater
          have firstStarts := starts first List.mem_cons_self
          have firstOrdered := first.1.first_le_last
          have reaches := (AddressRange.meets_iff.1 meets).2
          refine AddressRange.meets_iff.2 ?_
          simp only [BitVec.le_def, BitVec.lt_def] at *
          omega

/-- An entry that meets neither those before nor those behind its place can be put there. -/
theorem ascending_insert (value : α) (ascending : Ascending (below ++ above))
    (before : ∀ entry ∈ below, entry.1.first < range.first)
    (behind : ∀ entry ∈ above, ¬ entry.1.first < range.first)
    (apart : ∀ entry ∈ below ++ above, ¬ range.Meets entry.1) :
    Ascending (below ++ (range, value) :: above) := by
  obtain ⟨belowAscending, aboveAscending, across⟩ := List.pairwise_append.1 ascending
  have rangeOrdered := range.first_le_last
  refine List.pairwise_append.2 ⟨belowAscending, List.pairwise_cons.2 ⟨fun entry member => ?_,
    aboveAscending⟩, fun entry member other memberOther => ?_⟩
  · have starts := behind entry member
    have entryOrdered := entry.1.first_le_last
    have clear := AddressRange.not_meets_iff.1 (apart entry (List.mem_append_right below member))
    simp only [BitVec.le_def, BitVec.lt_def] at *
    omega
  · rcases List.mem_cons.1 memberOther with rfl | later
    · have starts := before entry member
      have clear := AddressRange.not_meets_iff.1 (apart entry (List.mem_append_left above member))
      simp only [BitVec.le_def, BitVec.lt_def] at *
      omega
    · exact across entry member other later

/-- It is enough to ask the neighbours: inserting in place does what `insert` does. -/
theorem insertInPlace_eq (map : AddressMap α) (range : AddressRange) (value : α) :
    insertInPlace range value map.entries =
      match map.insert range value with
      | .ok after => (.ok (), after.entries)
      | .error refusal => (.error refusal, map.entries) := by
  have divided : map.entries.Pairwise fun low high =>
      decide (high.1.first < range.first) = true → decide (low.1.first < range.first) = true := by
    refine (Ascending.sorted map.ordered).imp fun {low high} starts => ?_
    simp only [decide_eq_true_eq, BitVec.lt_def] at *
    omega
  obtain ⟨lower, upper⟩ := partitionPoint_spec divided
  unfold insertInPlace
  dsimp only
  revert lower upper
  generalize partitionPoint (fun entry => decide (entry.1.first < range.first)) map.entries = place
  intro lower upper
  have before : ∀ entry ∈ map.entries.take place, entry.1.first < range.first :=
    fun entry member => of_decide_eq_true (lower entry member)
  have behind : ∀ entry ∈ map.entries.drop place, ¬ entry.1.first < range.first :=
    fun entry member => of_decide_eq_false (upper entry member)
  have parts : map.entries.take place ++ map.entries.drop place = map.entries :=
    List.take_append_drop place map.entries
  have refused : ((map.entries.take place).getLast?.any (·.1.overlaps range) ||
      (map.entries.drop place).head?.any (·.1.overlaps range)) = true ↔
        ∃ entry ∈ map.entries, range.Meets entry.1 := by
    rw [Bool.or_eq_true, getLast?_overlaps_iff (map.ordered.sublist (List.take_sublist ..)) before,
      head?_overlaps_iff (map.ordered.sublist (List.drop_sublist ..)) behind]
    simp only [← exists_or, ← or_and_right, ← List.mem_append, parts]
  split
  · rename_i neighbour
    rw [insert_eq_error_iff.2 ⟨rfl, refused.1 neighbour⟩]
  · rename_i noNeighbour
    have apart : ∀ entry ∈ map.entries, ¬ range.Meets entry.1 :=
      fun entry member meets => noNeighbour (refused.2 ⟨entry, member, meets⟩)
    have ascending := map.ordered
    rw [← parts] at apart ascending
    have inOrder := ascending_insert value ascending before behind apart
    have placed : map.insert range value = .ok ⟨_, inOrder⟩ := by
      refine insert_eq_ok_iff.2 (List.perm_middle.trans ?_)
      rw [parts]
    rw [placed]

end InPlace

/-! ## Sequences of inserts -/

/-- The map after an attempt to insert an entry, which leaves it as it is if it is refused. -/
def attempt (map : AddressMap α) (entry : AddressRange × α) : AddressMap α :=
  match map.insert entry.1 entry.2 with
  | .ok after => after
  | .error _ => map

/-- The map after a sequence of attempts. -/
def attemptAll (map : AddressMap α) (entries : List (AddressRange × α)) : AddressMap α :=
  entries.foldl attempt map

/-- The list of entries after a sequence of inserts in place. -/
def insertEachInPlace (entries attempts : List (AddressRange × α)) : List (AddressRange × α) :=
  attempts.foldl (fun entries entry => (insertInPlace entry.1 entry.2 entries).2) entries

/-- The entries of a list whose range shares no address with that of an entry kept before them, on
top of those that were `kept` already. -/
def keep (kept : List (AddressRange × α)) : List (AddressRange × α) → List (AddressRange × α)
  | [] => kept
  | entry :: rest =>
    keep (if ∃ other ∈ kept, entry.1.Meets other.1 then kept else entry :: kept) rest

theorem attempt_of_meets {entry : AddressRange × α}
    (meets : ∃ other ∈ map.entries, entry.1.Meets other.1) : map.attempt entry = map := by
  unfold attempt
  rw [insert_eq_error_iff.2 ⟨rfl, meets⟩]

theorem perm_attempt_of_apart {entry : AddressRange × α}
    (apart : ¬ ∃ other ∈ map.entries, entry.1.Meets other.1) :
    (map.attempt entry).entries.Perm (entry :: map.entries) := by
  unfold attempt
  split
  · rename_i after inserted
    exact insert_eq_ok_iff.1 inserted
  · rename_i refusal refused
    exact absurd (insert_eq_error_iff.1 refused).2 apart

/-- An attempt keeps what `keep` keeps. -/
theorem perm_attempt {kept : List (AddressRange × α)} (perm : map.entries.Perm kept)
    (entry : AddressRange × α) :
    (map.attempt entry).entries.Perm
      (if ∃ other ∈ kept, entry.1.Meets other.1 then kept else entry :: kept) := by
  have same : (∃ other ∈ kept, entry.1.Meets other.1) ↔
      ∃ other ∈ map.entries, entry.1.Meets other.1 := by
    simp only [perm.mem_iff]
  split
  · rename_i meets
    rw [attempt_of_meets (same.1 meets)]
    exact perm
  · rename_i apart
    exact (perm_attempt_of_apart fun meets => apart (same.2 meets)).trans (perm.cons entry)

theorem perm_attemptAll {kept : List (AddressRange × α)} (perm : map.entries.Perm kept)
    (attempts : List (AddressRange × α)) :
    (map.attemptAll attempts).entries.Perm (keep kept attempts) := by
  induction attempts generalizing map kept with
  | nil => exact perm
  | cons entry rest ih => exact ih (perm_attempt perm entry)

theorem insertInPlace_attempt (map : AddressMap α) (entry : AddressRange × α) :
    (insertInPlace entry.1 entry.2 map.entries).2 = (map.attempt entry).entries := by
  rw [insertInPlace_eq]
  unfold attempt
  cases map.insert entry.1 entry.2 with
  | ok after => rfl
  | error refusal => rfl

/-- The list that is kept in place stays that of a map, whatever is inserted. -/
theorem insertEachInPlace_eq (map : AddressMap α) (attempts : List (AddressRange × α)) :
    insertEachInPlace map.entries attempts = (map.attemptAll attempts).entries := by
  induction attempts generalizing map with
  | nil => rfl
  | cons entry rest ih =>
      have first := insertInPlace_attempt map entry
      unfold insertEachInPlace attemptAll
      rw [List.foldl_cons, List.foldl_cons, first]
      exact ih (map.attempt entry)

/-- Disjoint entries are all kept. -/
theorem keep_of_disjoint {kept attempts : List (AddressRange × α)}
    (disjoint : Disjoint (attempts ++ kept)) : (keep kept attempts).Perm (attempts ++ kept) := by
  induction attempts generalizing kept with
  | nil => exact .refl _
  | cons entry rest ih =>
      obtain ⟨apart, restDisjoint⟩ := List.pairwise_cons.1 disjoint
      have notMeeting : ¬ ∃ other ∈ kept, entry.1.Meets other.1 := by
        rintro ⟨other, member, meets⟩
        exact apart other (List.mem_append_right rest member) meets
      have moved : (rest ++ entry :: kept).Perm (entry :: rest ++ kept) := List.perm_middle
      unfold keep
      rw [if_neg notMeeting]
      exact (ih ((Disjoint.perm_iff moved).2 disjoint)).trans moved

/-- What a sequence of inserts into the empty map leads to. An insert is refused exactly if its
range shares an address with one that is mapped, and then nothing changes; searching for its place
and asking the neighbours there gives the same answer and the same list. The ranges ascend and are
disjoint, and the entries are those of the attempts that met none of the entries before them. A
lookup, also by binary search, finds the one entry whose range contains the address, and nothing
only if there is none. The order of disjoint entries does not matter. -/
theorem inserts_exact (attempts : List (AddressRange × α)) :
    let map := empty.attemptAll attempts
    (∀ range value,
      ((∃ refusal, map.insert range value = .error refusal) ↔
        ∃ other ∈ map.entries, range.Meets other.1) ∧
      insertInPlace range value map.entries =
        match map.insert range value with
        | .ok after => (.ok (), after.entries)
        | .error refusal => (.error refusal, map.entries)) ∧
    insertEachInPlace [] attempts = map.entries ∧
    (map.entries.Pairwise fun low high => low.1.first < high.1.first) ∧
    (map.entries.Pairwise fun low high => ¬ low.1.Meets high.1) ∧
    map.entries.Perm (keep [] attempts) ∧
    (∀ address,
      searchEntry? address map.entries = map.entry? address ∧
      (∀ entry, map.entry? address = some entry ↔
        entry ∈ keep [] attempts ∧ entry.1.contains address = true) ∧
      (map.entry? address = none ↔
        ∀ entry ∈ keep [] attempts, entry.1.contains address = false)) ∧
    ((attempts.Pairwise fun entry other => ¬ entry.1.Meets other.1) →
      map.entries.Perm attempts ∧
      ∀ others : List (AddressRange × α), others.Perm attempts →
        empty.attemptAll others = map) := by
  intro map
  have kept : map.entries.Perm (keep [] attempts) := perm_attemptAll (.refl _) attempts
  have finds (address : Word) (entry : AddressRange × α) : map.entry? address = some entry ↔
      entry ∈ keep [] attempts ∧ entry.1.contains address = true := by
    rw [entry?_eq_some_iff, kept.mem_iff]
  refine ⟨fun range value => ⟨?_, insertInPlace_eq map range value⟩,
    insertEachInPlace_eq empty attempts, Ascending.sorted map.ordered,
    Ascending.disjoint map.ordered, kept,
    fun address => ⟨searchEntry?_eq map address, finds address, ?_⟩, fun disjoint => ?_⟩
  · simp only [insert_eq_error_iff, exists_eq_left]
  · rw [Option.eq_none_iff_forall_ne_some]
    constructor
    · intro nothing entry member
      refine Bool.eq_false_iff.2 fun contains => ?_
      exact nothing entry ((finds address entry).2 ⟨member, contains⟩)
    · intro outside entry found
      obtain ⟨member, contains⟩ := (finds address entry).1 found
      rw [outside entry member] at contains
      cases contains
  · have allKept (others : List (AddressRange × α)) (perm : others.Perm attempts) :
        (empty.attemptAll others).entries.Perm attempts := by
      have disjointOthers : Disjoint (others ++ []) := by
        rw [List.append_nil]
        exact (Disjoint.perm_iff perm).2 disjoint
      have keptOthers := keep_of_disjoint disjointOthers
      rw [List.append_nil] at keptOthers
      exact (perm_attemptAll (.refl _) others).trans (keptOthers.trans perm)
    refine ⟨allKept attempts (.refl _), fun others perm => eq_of_perm ?_⟩
    exact (allKept others perm).trans (allKept attempts (.refl _)).symm

theorem touchingRanges_any_order :
    (touchingRanges.Pairwise fun entry other => ¬ entry.1.Meets other.1) ∧
    touchingRanges.reverse.Perm touchingRanges ∧
    empty.attemptAll touchingRanges.reverse = empty.attemptAll touchingRanges ∧
    entry? (empty.attemptAll touchingRanges) 0xFFFFFFFF =
      some (⟨0xFFFFFFFF, 0xFFFFFFFF, by decide⟩, 2) := by
  have disjoint : touchingRanges.Pairwise fun entry other => ¬ entry.1.Meets other.1 := by decide
  have reversed : touchingRanges.reverse.Perm touchingRanges := List.reverse_perm _
  obtain ⟨-, -, -, -, -, finds, anyOrder⟩ := inserts_exact touchingRanges
  exact ⟨disjoint, reversed, (anyOrder disjoint).2 _ reversed,
    ((finds 0xFFFFFFFF).2.1 _).2 ⟨by decide, by decide⟩⟩

end AddressMap

end Rv32
