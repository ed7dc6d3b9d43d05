import Rv32.Proofs.Soundness
import Rv32.Proofs.VirtualPages

/-!
# Coherent caches

The caches of a machine are coherent if a walk made now would find what they hold, and would change
nothing because its leaf has been marked before (`Machine.Settled`). That depends on the words that
walks have read and on the context of the access. While words of both kinds stay as they are, apart
from accessed and dirty bits that are set, coherent caches stay coherent (`Coherent.change`), and
whether an address is looked up or translated anew makes no difference (`Coherent.locate_outcome`).
-/

namespace Rv32

theorem Bus.mark_of_used (bus : Bus) {leaf : Leaf} {kind : AccessKind}
    (used : leaf.entry.used kind = leaf.entry) : bus.mark leaf kind = bus :=
  if_pos used

/-- An entry that gained bits leads where it led. -/
theorem Leaf.physical_of_gains {leaf : Leaf} {entry : PageTableEntry}
    (gains : leaf.entry.Gains entry) (address : Word) :
    Leaf.physical { leaf with entry := entry } address = leaf.physical address := by
  unfold physical PageTableEntry.translate
  dsimp only
  rw [gains.page_eq]

/-- What is in main memory stays there while no region is lost. -/
theorem Bus.InMemory.mono {before after : Bus} {address : Word} (inside : before.InMemory address)
    (regions : ∀ region, before.HasRegion region → after.HasRegion region) :
    after.InMemory address := by
  obtain ⟨region, found, memory⟩ := inside
  obtain ⟨has, contains⟩ := findRegion_eq_some_iff.1 found
  exact ⟨region, findRegion_eq_some_iff.2 ⟨regions region has, contains⟩, memory⟩

namespace Machine

/-! ## Translations that are settled -/

/-- A translation leads to `physical`, by a way through words in `seen` only and to a leaf that has
been marked. -/
structure Settled (machine : Machine) (seen : List Word) (address : Word) (kind : AccessKind)
    (physical : Word) : Prop where
  path : ∀ location ∈ machine.pathOf address kind, location ∈ seen
  leads : Bypasses machine.hart kind ∧ physical = address ∨
    ∃ leaf, machine.leafOf address kind = some leaf ∧ leaf.entry.used kind = leaf.entry ∧
      physical = leaf.physical address

theorem not_bypasses_of_leafOf {machine : Machine} {address : Word} {kind : AccessKind}
    {leaf : Leaf} (isLeaf : machine.leafOf address kind = some leaf) :
    ¬ Bypasses machine.hart kind := by
  intro bypasses
  have none : machine.leafOf address kind = none := if_pos bypasses
  rw [none] at isLeaf
  cases isLeaf

namespace Settled

variable {machine before after : Machine} {seen more : List Word} {address other physical : Word}
  {kind : AccessKind}

theorem mono (settled : machine.Settled seen address kind physical)
    (all : ∀ location ∈ seen, location ∈ more) : machine.Settled more address kind physical :=
  ⟨fun location member => all location (settled.path location member), settled.leads⟩

/-- A settled translation can be made anew without any effect. -/
theorem translate (settled : machine.Settled seen address kind physical)
    (inside : ∀ location ∈ seen, machine.bus.InMemory location) :
    (Machine.translate address kind).outcome machine = (.ok physical, machine) := by
  rw [translate_outcome fun location member => inside location (settled.path location member)]
  rcases settled.leads with ⟨bypasses, rfl⟩ | ⟨leaf, isLeaf, used, rfl⟩
  · exact if_pos bypasses
  · rw [if_neg (not_bypasses_of_leafOf isLeaf), isLeaf]
    dsimp only
    rw [Bus.mark_of_used _ used]

/-- It stays settled in the same context while the words it depends on only gain bits. -/
theorem of_gains (settled : before.Settled seen address kind physical)
    (gains : ∀ location ∈ seen, (before.bus.entryAt location).Gains (after.bus.entryAt location))
    (same : after.hart.translationContext kind = before.hart.translationContext kind) :
    after.Settled seen address kind physical := by
  have onPath : ∀ location ∈ before.pathOf address kind,
      (before.bus.entryAt location).Gains (after.bus.entryAt location) :=
    fun location member => gains location (settled.path location member)
  refine ⟨?_, ?_⟩
  · rw [pathOf_of_gains onPath same]
    exact settled.path
  · rcases settled.leads with ⟨bypasses, leads⟩ | ⟨leaf, isLeaf, used, leads⟩
    · exact .inl ⟨(bypasses_iff_of_context same).2 bypasses, leads⟩
    · obtain ⟨member, -, isEntry, -, -, -⟩ := leafOf_eq_some isLeaf
      have gained := onPath _ member
      rw [← isEntry] at gained
      refine .inr ⟨{ leaf with entry := after.bus.entryAt leaf.location }, ?_, ?_, ?_⟩
      · rw [leafOf_of_gains onPath same, isLeaf]
        rfl
      · exact gained.used_eq used
      · rw [leads, Leaf.physical_of_gains gained]

/-- With one address, its whole page is settled. -/
theorem of_page (settled : machine.Settled seen address kind physical)
    (same : pageOf other = pageOf address) :
    machine.Settled seen other kind (pageAddress (pageOf physical) (pageOffset other)) := by
  refine ⟨?_, ?_⟩
  · rw [pathOf_eq_of_pageOf same]
    exact settled.path
  · rcases settled.leads with ⟨bypasses, rfl⟩ | ⟨leaf, isLeaf, used, rfl⟩
    · refine .inl ⟨bypasses, ?_⟩
      rw [← same]
      exact pageAddress_pageOf other
    · obtain ⟨-, -, -, -, -, low⟩ := leafOf_eq_some isLeaf
      refine .inr ⟨leaf, (leafOf_eq_of_pageOf same machine kind).trans isLeaf, used, ?_⟩
      exact (leaf.physical_eq_of_pageOf same low).symm

end Settled

/-- A translation is settled by the mark that it leaves in its leaf. -/
theorem settled_mark {machine : Machine} {address : Word} {kind : AccessKind} {leaf : Leaf}
    (inside : ∀ location ∈ machine.pathOf address kind, machine.bus.InMemory location)
    (ages : machine.bus.Ages (machine.bus.mark leaf kind))
    (isLeaf : machine.leafOf address kind = some leaf) :
    Settled { machine with bus := machine.bus.mark leaf kind } (machine.pathOf address kind) address
      kind (leaf.physical address) := by
  let marked : Machine := { machine with bus := machine.bus.mark leaf kind }
  obtain ⟨member, -, isEntry, wellFormed, -, -⟩ := leafOf_eq_some isLeaf
  have isUsed : marked.bus.entryAt leaf.location = leaf.entry.used kind :=
    Bus.entryAt_mark kind (inside _ member) isEntry wellFormed
  have gains : ∀ location ∈ machine.pathOf address kind,
      (machine.bus.entryAt location).Gains (marked.bus.entryAt location) :=
    gains_of_ages ages inside
  have same : marked.hart.translationContext kind = machine.hart.translationContext kind := rfl
  have isLeafAfter : marked.leafOf address kind =
      some { leaf with entry := leaf.entry.used kind } := by
    rw [leafOf_of_gains gains same, isLeaf, ← isUsed]
    rfl
  refine ⟨fun location onPath => ?_, .inr ⟨_, isLeafAfter, PageTableEntry.used_used .., ?_⟩⟩
  · exact pathOf_of_gains gains same ▸ onPath
  · exact (Leaf.physical_of_gains (leaf.entry.gains_used kind) address).symm

/-- The page tables bear out what a cached entry says about its page. -/
def Justifies (machine : Machine) (seen : List Word) (kind : AccessKind) (entry : TlbEntry) :
    Prop :=
  ∀ address, pageOf address = entry.virtualPage →
    machine.Settled seen address kind (pageAddress entry.physicalPage (pageOffset address))

/-! ## Coherence -/

/-- The machine is sound, the words in `seen` are words of main memory, and they bear out all that
is cached. -/
structure Coherent (seen : List Word) (machine : Machine) : Prop where
  sound : machine.Sound
  inside : ∀ location ∈ seen, machine.bus.InMemory location
  aligned : ∀ location ∈ seen, Width.word.Aligned location
  justified : machine.hart.tlb.All (machine.Justifies seen)

namespace Coherent

variable {machine before after : Machine} {seen more : List Word} {address : Word}
  {kind : AccessKind}

/-- Empty caches are coherent. -/
theorem of_empty (sound : machine.bus.Sound) (empty : machine.hart.tlb = .empty) :
    Coherent [] machine := by
  refine ⟨⟨sound, ?_⟩, nofun, nofun, ?_⟩
  · rw [empty]
    exact .empty _
  · rw [empty]
    exact .empty _

theorem extend (coherent : Coherent seen machine)
    (inside : ∀ location ∈ more, machine.bus.InMemory location)
    (aligned : ∀ location ∈ more, Width.word.Aligned location) :
    Coherent (seen ++ more) machine where
  sound := coherent.sound
  inside := fun _ member => (List.mem_append.1 member).elim (coherent.inside _) (inside _)
  aligned := fun _ member => (List.mem_append.1 member).elim (coherent.aligned _) (aligned _)
  justified := coherent.justified.mono fun _ _ justified address same =>
    (justified address same).mono fun _ member => List.mem_append_left more member

/-- Caches stay coherent if no region is lost, the words seen only gain bits, and no context changes
unless the caches are emptied. -/
theorem change (coherent : Coherent seen before) (sound : after.bus.Sound)
    (regions : ∀ region, before.bus.HasRegion region → after.bus.HasRegion region)
    (gains : ∀ location ∈ seen, (before.bus.entryAt location).Gains (after.bus.entryAt location))
    (refreshed : before.hart.Refreshed after.hart) : Coherent seen after := by
  refine ⟨⟨sound, ?_⟩, fun location member => (coherent.inside location member).mono regions,
    coherent.aligned, ?_⟩
  · rcases refreshed with emptied | ⟨kept, -⟩
    · rw [emptied]
      exact .empty _
    · rw [kept]
      exact coherent.sound.cached.mono fun kind entry cached =>
        ⟨cached.1, regions _ cached.2⟩
  -- An entry that stays was made in the context of now, and its way only gains bits.
  · rcases refreshed with emptied | ⟨kept, same⟩
    · rw [emptied]
      exact .empty _
    · rw [kept]
      exact coherent.justified.mono fun kind entry justified address page =>
        (justified address page).of_gains gains (same kind)

/-- Caches stay coherent when the hart alone changes, and empties them if it changes a context. -/
theorem changeHart (coherent : Coherent seen before) (bus : after.bus = before.bus)
    (refreshed : before.hart.Refreshed after.hart) : Coherent seen after := by
  refine coherent.change ?_ ?_ ?_ refreshed
  · rw [bus]
    exact coherent.sound.bus
  · rw [bus]
    exact fun _ => id
  · rw [bus]
    exact fun _ _ => .refl _

/-! ## Accesses -/

theorem inside_path (coherent : Coherent seen machine)
    (path : ∀ location ∈ machine.pathOf address kind, location ∈ seen) :
    ∀ location ∈ machine.pathOf address kind, machine.bus.InMemory location :=
  fun location member => coherent.inside location (path location member)

/-- A lookup finds a settled translation. -/
theorem settled_of_lookup (coherent : Coherent seen machine) {physical : Word} {region : Region}
    (hit : machine.hart.tlb.lookup address kind = some (physical, region)) :
    machine.Settled seen address kind physical := by
  obtain ⟨entry, cached, serves, -, rfl, -⟩ := Tlb.lookup_eq_some_iff.1 hit
  exact coherent.justified _ _ _ cached address serves.symm

/-- A translation leaves the caches coherent, and is settled afterwards. -/
theorem translate (coherent : Coherent seen machine)
    (path : ∀ location ∈ machine.pathOf address kind, location ∈ seen) {middle : Machine}
    {result : Except Exception Word}
    (translated : (Machine.translate address kind).outcome machine = (result, middle)) :
    Coherent seen middle ∧
      ∀ physical, result = .ok physical → middle.Settled seen address kind physical := by
  have inside := coherent.inside_path path
  rw [translate_outcome inside] at translated
  by_cases bypasses : Bypasses machine.hart kind
  · rw [if_pos bypasses] at translated
    cases translated
    refine ⟨coherent, fun physical same => ⟨path, .inl ⟨bypasses, ?_⟩⟩⟩
    exact (Except.ok.inj same).symm
  · rw [if_neg bypasses] at translated
    cases isLeaf : machine.leafOf address kind with
    | none =>
        rw [isLeaf] at translated
        cases translated
        exact ⟨coherent, nofun⟩
    | some leaf =>
        rw [isLeaf] at translated
        cases translated
        obtain ⟨member, aligned, isEntry, wellFormed, -, -⟩ := leafOf_eq_some isLeaf
        have ages :=
          Bus.ages_mark kind (inside _ member) isEntry wellFormed coherent.sound.bus aligned
        constructor
        · refine coherent.change (ages.map.sound coherent.sound.bus) (fun _ => ages.map.hasRegion)
            (fun location isSeen => ?_) (.refl _)
          exact ages.gains location (coherent.inside _ isSeen) (coherent.aligned _ isSeen)
        · intro physical same
          cases same
          exact (settled_mark inside ages isLeaf).mono path

/-- The caches stay coherent when they are asked for an address. -/
theorem locate (coherent : Coherent seen machine)
    (path : ∀ location ∈ machine.pathOf address kind, location ∈ seen) :
    Coherent seen ((Machine.locate address kind).outcome machine).2 := by
  rcases looked : machine.hart.tlb.lookup address kind with _ | ⟨cachedPhysical, cachedRegion⟩
  · rw [locate_of_miss looked]
    rcases translated : (Machine.translate address kind).outcome machine with
      ⟨raised | physical, middle⟩
    · exact (coherent.translate path translated).1
    · obtain ⟨kept, settles⟩ := coherent.translate path translated
      have settled := settles physical rfl
      dsimp only
      cases found : middle.bus.findRegion physical with
      | none => exact kept
      | some region =>
          have has := (Bus.findRegion_eq_some_iff.1 found).1
          refine ⟨⟨kept.sound.bus, kept.sound.cached.insert fun memory => ⟨memory, has⟩⟩,
            kept.inside, kept.aligned, ?_⟩
          -- The new entry stands for a page, of which one address has been settled by the walk.
          refine Tlb.All.mono (kept.justified.insert fun _ other same => settled.of_page same) ?_
          exact fun kind entry justified other same =>
            (justified other same).of_gains (fun _ _ => .refl _) rfl
  · rw [locate_of_hit looked]
    exact coherent

end Coherent

end Machine

end Rv32
