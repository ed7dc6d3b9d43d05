import Rv32.Proofs.MemoryWords
import Rv32.Proofs.TranslationContext

/-!
# Walks through page tables

`Bus.walkPath` lists the words that a walk reads and `Bus.findLeaf` is the leaf it ends at. While
those words lie in main memory, a walk does nothing but mark that leaf as used
(`Machine.walk_outcome`).

A word that only gains accessed and dirty bits (`PageTableEntry.Gains`) directs walks as before, so
the marks of one walk do not disturb another (`Bus.findLeaf_of_gains`).
-/

namespace Rv32

/-! ## Entries that gain accessed and dirty bits -/

namespace PageTableEntry

/-- The second entry is the first one with accessed and dirty bits set at most. -/
def Gains (before after : PageTableEntry) : Prop :=
  ∀ bit, after.bits.getLsbD bit = before.bits.getLsbD bit ∨
    (bit = 6 ∨ bit = 7) ∧ after.bits.getLsbD bit = true

namespace Gains

variable {before middle after : PageTableEntry}

theorem refl (entry : PageTableEntry) : entry.Gains entry := fun _ => .inl rfl

theorem trans (left : before.Gains middle) (right : middle.Gains after) : before.Gains after := by
  intro bit
  rcases right bit with same | gained
  · rcases left bit with same' | ⟨usage, set⟩
    · exact .inl (same.trans same')
    · exact .inr ⟨usage, same.trans set⟩
  · exact .inr gained

/-- The bits other than the accessed and the dirty one stay. -/
theorem bit_eq (gains : before.Gains after) {bit : Nat} (other : bit ≠ 6 ∧ bit ≠ 7) :
    after.bits.getLsbD bit = before.bits.getLsbD bit := by
  rcases gains bit with same | ⟨usage, -⟩
  · exact same
  · omega

theorem wellFormed_eq (gains : before.Gains after) : after.wellFormed = before.wellFormed := by
  unfold wellFormed valid writable readable
  rw [gains.bit_eq (by decide), gains.bit_eq (by decide), gains.bit_eq (by decide)]

theorem isPointer_eq (gains : before.Gains after) : after.isPointer = before.isPointer := by
  unfold isPointer readable executable
  rw [gains.bit_eq (by decide), gains.bit_eq (by decide)]

theorem page_eq (gains : before.Gains after) : after.page = before.page := by
  unfold page
  refine BitVec.eq_of_getLsbD_eq fun bit inside => ?_
  rw [BitVec.getLsbD_extractLsb', BitVec.getLsbD_extractLsb', gains.bit_eq (by omega)]

theorem permits_eq (gains : before.Gains after) (hart : Hart) (kind : AccessKind) :
    Machine.permits after hart kind = Machine.permits before hart kind := by
  have user : after.user = before.user := gains.bit_eq (by decide)
  have readable : after.readable = before.readable := gains.bit_eq (by decide)
  have writable : after.writable = before.writable := gains.bit_eq (by decide)
  have executable : after.executable = before.executable := gains.bit_eq (by decide)
  unfold Machine.permits permitsLevel permitsKind
  rw [user, readable, writable, executable]

end Gains

theorem usageBits_getLsbD (kind : AccessKind) {bit : Nat}
    (set : (usageBits kind).getLsbD bit = true) : bit = 6 ∨ bit = 7 := by
  have small : ∀ bit < 32, (usageBits kind).getLsbD bit = true → bit = 6 ∨ bit = 7 := by
    cases kind <;> decide
  exact small bit (BitVec.lt_of_getLsbD set) set

/-- A leaf that is used gains bits only. -/
theorem gains_used (entry : PageTableEntry) (kind : AccessKind) :
    entry.Gains (entry.used kind) := by
  intro bit
  unfold used
  rw [BitVec.getLsbD_or]
  cases set : (usageBits kind).getLsbD bit with
  | false => exact .inl (Bool.or_false _)
  | true => exact .inr ⟨usageBits_getLsbD kind set, Bool.or_true _⟩

theorem used_eq_iff {entry : PageTableEntry} {kind : AccessKind} :
    entry.used kind = entry ↔
      ∀ bit, (usageBits kind).getLsbD bit = true → entry.bits.getLsbD bit = true := by
  constructor
  · intro used bit set
    rw [← used]
    unfold PageTableEntry.used
    rw [BitVec.getLsbD_or, set, Bool.or_true]
  · intro all
    have same : (entry.used kind).bits = entry.bits := by
      refine BitVec.eq_of_getLsbD_eq fun bit _ => ?_
      unfold PageTableEntry.used
      rw [BitVec.getLsbD_or]
      cases set : (usageBits kind).getLsbD bit with
      | false => exact Bool.or_false _
      | true => exact (Bool.or_true _).trans (all bit set).symm
    exact congrArg PageTableEntry.mk same

/-- An entry that was used and gains bits has been used still. -/
theorem Gains.used_eq {before after : PageTableEntry} {kind : AccessKind}
    (gains : before.Gains after) (used : before.used kind = before) : after.used kind = after := by
  refine used_eq_iff.2 fun bit set => ?_
  rcases gains bit with same | ⟨-, gained⟩
  · exact same.trans (used_eq_iff.1 used bit set)
  · exact gained

/-- To be used twice is to be used once. -/
theorem used_used (entry : PageTableEntry) (kind : AccessKind) :
    (entry.used kind).used kind = entry.used kind := by
  refine used_eq_iff.2 fun bit set => ?_
  unfold used
  rw [BitVec.getLsbD_or, set, Bool.or_true]

theorem translate_used (entry : PageTableEntry) (kind : AccessKind) (address : Word)
    (offsetBits : Nat) :
    (entry.used kind).translate address offsetBits = entry.translate address offsetBits := by
  unfold translate
  rw [(entry.gains_used kind).page_eq]

/-- The low byte of a valid entry is not zero. -/
theorem byte_ne_zero {entry : PageTableEntry} (valid : entry.valid = true) :
    Word.byte entry.bits 0 ≠ 0 := by
  intro zero
  have bit : (Word.byte entry.bits 0).getLsbD 0 = entry.valid := by
    unfold Word.byte
    exact BitVec.getLsbD_extractLsb' ..
  rw [zero, valid] at bit
  cases bit

/-- Accessed and dirty bits lie in the low byte of an entry. -/
theorem byte_usageBits (kind : AccessKind) (index : Nat) (above : 0 < index) :
    Word.byte (usageBits kind) index = 0 := by
  refine BitVec.eq_of_getLsbD_eq fun bit inside => ?_
  unfold Word.byte
  rw [BitVec.getLsbD_extractLsb']
  cases set : (usageBits kind).getLsbD (8 * index + bit) with
  | false => exact (Bool.and_false _).trans BitVec.getLsbD_zero.symm
  | true =>
      have usage := usageBits_getLsbD kind set
      omega

end PageTableEntry

/-! ## Paths and leaves -/

/-- The entry at which a walk ends: where it lies, what it was, and its level. -/
structure Leaf where
  location : Word
  entry : PageTableEntry
  level : Nat

/-- The physical address that a leaf gives to a virtual one. -/
def Leaf.physical (leaf : Leaf) (address : Word) : Word :=
  leaf.entry.translate address (Machine.levelShift leaf.level)

namespace Bus

/-- The entry that a walk for `address` reads in a table. -/
def entryAt (bus : Bus) (location : Word) : PageTableEntry := ⟨bus.word location⟩

/-- Where a walk through `levels` levels reads, from the table at `table` on. -/
def walkPath (bus : Bus) (address : Word) : (levels : Nat) → (table : Word) → List Word
  | 0, _ => []
  | level + 1, table =>
    let location := Machine.entryAddress table address level
    let entry := bus.entryAt location
    if entry.wellFormed && entry.isPointer then
      location :: bus.walkPath address level (PageTableEntry.pageBase entry.page)
    else [location]

theorem head_mem_walkPath (bus : Bus) (address : Word) (level : Nat) (table : Word) :
    Machine.entryAddress table address level ∈ bus.walkPath address (level + 1) table := by
  unfold walkPath
  dsimp only
  split
  · exact List.mem_cons_self
  · exact List.mem_cons_self

theorem mem_walkPath {bus : Bus} {address : Word} {level : Nat} {table location : Word}
    (wellFormed : (bus.entryAt (Machine.entryAddress table address level)).wellFormed = true)
    (pointer : (bus.entryAt (Machine.entryAddress table address level)).isPointer = true)
    (member : location ∈ bus.walkPath address level (PageTableEntry.pageBase
      (bus.entryAt (Machine.entryAddress table address level)).page)) :
    location ∈ bus.walkPath address (level + 1) table := by
  unfold walkPath
  dsimp only
  rw [wellFormed, pointer]
  exact List.mem_cons_of_mem _ member

/-- The leaf that a walk ends at, if it finds one whose use is allowed. -/
def findLeaf (bus : Bus) (address : Word) (allowed : PageTableEntry → Bool) :
    (levels : Nat) → (table : Word) → Option Leaf
  | 0, _ => none
  | level + 1, table =>
    let location := Machine.entryAddress table address level
    let entry := bus.entryAt location
    if !entry.wellFormed then none
    else if entry.isPointer then
      bus.findLeaf address allowed level (PageTableEntry.pageBase entry.page)
    else if !allowed entry then none
    else some ⟨location, entry, level⟩

/-- The bus on which a leaf is marked as used. -/
def mark (bus : Bus) (leaf : Leaf) (kind : AccessKind) : Bus :=
  if leaf.entry.used kind = leaf.entry then bus
  else bus.store leaf.location (leaf.entry.used kind).bits .word

variable {bus after : Bus} {address : Word} {allowed : PageTableEntry → Bool} {levels : Nat}
  {table : Word}

/-- A leaf is a word on the path, whose use is allowed. -/
theorem findLeaf_eq_some {leaf : Leaf}
    (found : bus.findLeaf address allowed levels table = some leaf) :
    leaf.location ∈ bus.walkPath address levels table ∧
      leaf.entry = bus.entryAt leaf.location ∧ leaf.entry.wellFormed = true ∧
      allowed leaf.entry = true ∧ leaf.level < levels := by
  induction levels generalizing table with
  | zero => cases found
  | succ level ih =>
      unfold findLeaf at found
      dsimp only at found
      cases wellFormed :
          (bus.entryAt (Machine.entryAddress table address level)).wellFormed with
      | false =>
          rw [wellFormed] at found
          cases found
      | true =>
          cases pointer :
              (bus.entryAt (Machine.entryAddress table address level)).isPointer with
          | true =>
              rw [wellFormed, pointer] at found
              obtain ⟨member, isEntry, formed, permitted, low⟩ := ih found
              exact ⟨mem_walkPath wellFormed pointer member, isEntry, formed, permitted,
                Nat.lt_succ_of_lt low⟩
          | false =>
              rw [wellFormed, pointer] at found
              cases permitted :
                  allowed (bus.entryAt (Machine.entryAddress table address level)) with
              | false =>
                  rw [permitted] at found
                  cases found
              | true =>
                  rw [permitted] at found
                  cases found
                  exact ⟨head_mem_walkPath .., rfl, wellFormed, permitted, Nat.lt_succ_self _⟩

theorem aligned_of_mem_walkPath (aligned : Width.word.Aligned table) {location : Word}
    (member : location ∈ bus.walkPath address levels table) : Width.word.Aligned location := by
  induction levels generalizing table with
  | zero => cases member
  | succ level ih =>
      unfold walkPath at member
      dsimp only at member
      split at member
      · rcases List.mem_cons.1 member with rfl | deeper
        · exact Machine.aligned_entryAddress aligned address level
        · exact ih (PageTableEntry.aligned_pageBase _) deeper
      · rw [List.mem_singleton.1 member]
        exact Machine.aligned_entryAddress aligned address level

/-! ## Walks after entries have gained bits -/

theorem walkPath_of_gains
    (gains : ∀ location ∈ bus.walkPath address levels table,
      (bus.entryAt location).Gains (after.entryAt location)) :
    after.walkPath address levels table = bus.walkPath address levels table := by
  induction levels generalizing table with
  | zero => rfl
  | succ level ih =>
      have here := gains _ (head_mem_walkPath ..)
      have deeper := fun wellFormed pointer =>
        ih fun location member => gains location (mem_walkPath wellFormed pointer member)
      unfold walkPath
      dsimp only
      rw [here.wellFormed_eq, here.isPointer_eq, here.page_eq]
      cases wellFormed :
          (bus.entryAt (Machine.entryAddress table address level)).wellFormed with
      | false => rfl
      | true =>
          cases pointer :
              (bus.entryAt (Machine.entryAddress table address level)).isPointer with
          | false => rfl
          | true => exact congrArg (_ :: ·) (deeper wellFormed pointer)

/-- A walk ends at the same leaf, read anew. -/
theorem findLeaf_of_gains
    (steady : ∀ {before entry : PageTableEntry}, before.Gains entry →
      allowed entry = allowed before)
    (gains : ∀ location ∈ bus.walkPath address levels table,
      (bus.entryAt location).Gains (after.entryAt location)) :
    after.findLeaf address allowed levels table =
      (bus.findLeaf address allowed levels table).map fun leaf =>
        { leaf with entry := after.entryAt leaf.location } := by
  induction levels generalizing table with
  | zero => rfl
  | succ level ih =>
      have here := gains _ (head_mem_walkPath ..)
      have deeper := fun wellFormed pointer =>
        ih fun location member => gains location (mem_walkPath wellFormed pointer member)
      unfold findLeaf
      dsimp only
      rw [here.wellFormed_eq, here.isPointer_eq, here.page_eq, steady here]
      cases wellFormed :
          (bus.entryAt (Machine.entryAddress table address level)).wellFormed with
      | false => rfl
      | true =>
          cases pointer :
              (bus.entryAt (Machine.entryAddress table address level)).isPointer with
          | true => exact deeper wellFormed pointer
          | false =>
              cases allowed (bus.entryAt (Machine.entryAddress table address level)) with
              | false => rfl
              | true => rfl

/-! ## Marks -/

theorem sameMap_mark (bus : Bus) (leaf : Leaf) (kind : AccessKind) :
    bus.SameMap (bus.mark leaf kind) := by
  unfold mark
  split
  · exact .refl bus
  · exact bus.sameMap_store ..

/-- From one bus to the other the map stayed, and words of main memory gained accessed and dirty
bits at most. -/
structure Ages (before after : Bus) : Prop where
  map : before.SameMap after
  gains : ∀ location, before.InMemory location → Width.word.Aligned location →
    (before.entryAt location).Gains (after.entryAt location)

namespace Ages

theorem refl (bus : Bus) : bus.Ages bus := ⟨.refl bus, fun _ _ _ => .refl _⟩

theorem trans {before middle after : Bus} (left : before.Ages middle) (right : middle.Ages after) :
    before.Ages after :=
  ⟨left.map.trans right.map, fun location inside aligned =>
    (left.gains location inside aligned).trans
      (right.gains location (left.map.inMemory inside) aligned)⟩

end Ages

section Mark

variable {leaf : Leaf} (kind : AccessKind) (inside : bus.InMemory leaf.location)
  (isEntry : leaf.entry = bus.entryAt leaf.location) (wellFormed : leaf.entry.wellFormed = true)

include inside isEntry wellFormed

/-- A leaf that was marked has been used. -/
theorem entryAt_mark : (bus.mark leaf kind).entryAt leaf.location = leaf.entry.used kind := by
  unfold mark
  split
  · rename_i used
    rw [used, isEntry]
  · have isWord : leaf.entry.bits = bus.word leaf.location := congrArg PageTableEntry.bits isEntry
    have present : Word.byte (bus.word leaf.location) 0 ≠ 0 := by
      rw [← isWord]
      exact PageTableEntry.byte_ne_zero (Bool.and_eq_true_iff.1 wellFormed).1
    have stored := word_store_or inside (PageTableEntry.byte_usageBits kind) present
    unfold entryAt PageTableEntry.used
    rw [isWord, stored]

/-- A mark lets the words of main memory gain bits only. -/
theorem ages_mark (sound : bus.Sound) (alignedLeaf : Width.word.Aligned leaf.location) :
    bus.Ages (bus.mark leaf kind) := by
  refine ⟨bus.sameMap_mark leaf kind, fun location insideToo aligned => ?_⟩
  by_cases same : leaf.location = location
  · subst same
    rw [entryAt_mark kind inside isEntry wellFormed, isEntry]
    exact PageTableEntry.gains_used _ kind
  · unfold mark
    split
    · exact .refl _
    · unfold entryAt
      rw [word_store_of_ne sound insideToo inside aligned alignedLeaf same]
      exact .refl _

end Mark

end Bus

namespace Machine

theorem markUsed_outcome (leaf : Leaf) (kind : AccessKind) (machine : Machine) :
    (markUsed leaf.location leaf.entry kind).outcome machine =
      ((), { machine with bus := machine.bus.mark leaf kind }) := by
  unfold markUsed Bus.mark
  rw [Effect.outcome_ite]
  split <;> rfl

/-- What a walk does whose words lie in main memory. -/
theorem walk_outcome (address : Word) (kind : AccessKind) (machine : Machine) (levels : Nat)
    (table : Word)
    (inside : ∀ location ∈ machine.bus.walkPath address levels table,
      machine.bus.InMemory location) :
    (walk address kind levels table).outcome machine =
      match machine.bus.findLeaf address (permits · machine.hart kind) levels table with
      | some leaf =>
        (.ok (leaf.physical address), { machine with bus := machine.bus.mark leaf kind })
      | none => (.error (kind.pageFault address), machine) := by
  induction levels generalizing table with
  | zero => rfl
  | succ level ih =>
      have here := inside _ (Bus.head_mem_walkPath ..)
      have deeper := fun wellFormed pointer =>
        ih _ fun location member => inside location (Bus.mem_walkPath wellFormed pointer member)
      -- Reading changes nothing in main memory, so deeper tables are read on the same bus.
      have read : (⟨(machine.bus.load (entryAddress table address level) .word).1⟩ :
          PageTableEntry) = machine.bus.entryAt (entryAddress table address level) := rfl
      unfold walk Bus.findLeaf
      rw [Attempt.outcome_lift_bind, Effect.outcome_loadPhysical, Bus.load_of_inMemory here]
      dsimp only
      rw [Attempt.outcome_ite, Attempt.outcome_ite, read]
      generalize machine.bus.entryAt (entryAddress table address level) = entry at deeper ⊢
      cases wellFormed : entry.wellFormed with
      | false => rfl
      | true =>
          cases pointer : entry.isPointer with
          | true => exact deeper wellFormed pointer
          | false =>
              rw [Attempt.outcome_lift_bind, Effect.outcome_getHart]
              dsimp only
              rw [Attempt.outcome_ite]
              cases allowed : permits entry machine.hart kind with
              | false => rfl
              | true =>
                  have marked := markUsed_outcome
                    ⟨entryAddress table address level, entry, level⟩ kind machine
                  have same := entry.translate_used kind address (levelShift level)
                  dsimp only at marked
                  rw [Attempt.outcome_lift_bind, marked, same]
                  rfl

/-! ## Translation -/

/-- Whether addresses are taken as they are, without page tables. -/
def Bypasses (hart : Hart) (kind : AccessKind) : Prop :=
  effectiveLevel hart kind = .machine ∨ hart.satp.translates = false

instance (hart : Hart) (kind : AccessKind) : Decidable (Bypasses hart kind) :=
  inferInstanceAs (Decidable (_ ∨ _))

/-- The root of the page tables. -/
def rootTable (hart : Hart) : Word := PageTableEntry.pageBase hart.satp.rootPage

/-- Where the translation of an address reads. -/
def pathOf (machine : Machine) (address : Word) (kind : AccessKind) : List Word :=
  if Bypasses machine.hart kind then []
  else machine.bus.walkPath address 2 (rootTable machine.hart)

/-- The leaf that translates an address, if page tables do and allow it. -/
def leafOf (machine : Machine) (address : Word) (kind : AccessKind) : Option Leaf :=
  if Bypasses machine.hart kind then none
  else machine.bus.findLeaf address (permits · machine.hart kind) 2 (rootTable machine.hart)

/-- What a translation does whose words lie in main memory. -/
theorem translate_outcome {address : Word} {kind : AccessKind} {machine : Machine}
    (inside : ∀ location ∈ machine.pathOf address kind, machine.bus.InMemory location) :
    (translate address kind).outcome machine =
      if Bypasses machine.hart kind then (.ok address, machine)
      else
        match machine.leafOf address kind with
        | some leaf =>
          (.ok (leaf.physical address), { machine with bus := machine.bus.mark leaf kind })
        | none => (.error (kind.pageFault address), machine) := by
  unfold translate leafOf
  unfold pathOf at inside
  rw [Attempt.outcome_lift_bind, Effect.outcome_getHart]
  dsimp only
  rw [Attempt.outcome_ite]
  by_cases bypasses : Bypasses machine.hart kind
  · rw [if_pos bypasses]
    exact if_pos bypasses
  · rw [if_neg bypasses] at inside
    rw [if_neg bypasses, if_neg bypasses]
    exact (if_neg bypasses).trans (walk_outcome address kind machine 2 _ inside)

theorem translate_of_bypasses {address : Word} {kind : AccessKind} {machine : Machine}
    (bypasses : Bypasses machine.hart kind) :
    (translate address kind).outcome machine = (.ok address, machine) := by
  have nowhere : machine.pathOf address kind = [] := if_pos bypasses
  rw [translate_outcome (nowhere ▸ nofun), if_pos bypasses]

/-- A translation that fails raises its page fault and has done nothing. -/
theorem translate_error {machine after : Machine} {address : Word} {kind : AccessKind}
    {raised : Exception}
    (inside : ∀ location ∈ machine.pathOf address kind, machine.bus.InMemory location)
    (failed : (translate address kind).outcome machine = (.error raised, after)) :
    raised = kind.pageFault address ∧ after = machine := by
  rw [translate_outcome inside] at failed
  split at failed
  · cases failed
  · split at failed
    · cases failed
    · cases failed
      exact ⟨rfl, rfl⟩

/-- A leaf is an aligned word on the path, well-formed and open to the access. -/
theorem leafOf_eq_some {machine : Machine} {address : Word} {kind : AccessKind} {leaf : Leaf}
    (found : machine.leafOf address kind = some leaf) :
    leaf.location ∈ machine.pathOf address kind ∧ Width.word.Aligned leaf.location ∧
      leaf.entry = machine.bus.entryAt leaf.location ∧ leaf.entry.wellFormed = true ∧
      permits leaf.entry machine.hart kind = true ∧ leaf.level < 2 := by
  unfold leafOf at found
  unfold pathOf
  split at found
  · cases found
  · rename_i walks
    obtain ⟨member, isEntry, wellFormed, permitted, low⟩ := Bus.findLeaf_eq_some found
    have aligned := Bus.aligned_of_mem_walkPath (PageTableEntry.aligned_pageBase _) member
    rw [if_neg walks]
    exact ⟨member, aligned, isEntry, wellFormed, permitted, low⟩

theorem aligned_of_mem_pathOf {machine : Machine} {address : Word} {kind : AccessKind}
    {location : Word} (member : location ∈ machine.pathOf address kind) :
    Width.word.Aligned location := by
  unfold pathOf at member
  split at member
  · cases member
  · exact Bus.aligned_of_mem_walkPath (PageTableEntry.aligned_pageBase _) member

theorem gains_of_ages {before after : Machine} {address : Word} {kind : AccessKind}
    (ages : before.bus.Ages after.bus)
    (inside : ∀ location ∈ before.pathOf address kind, before.bus.InMemory location) :
    ∀ location ∈ before.pathOf address kind,
      (before.bus.entryAt location).Gains (after.bus.entryAt location) :=
  fun location member =>
    ages.gains location (inside location member) (aligned_of_mem_pathOf member)

section Context

variable {before after : Hart} {kind : AccessKind}
  (same : after.translationContext kind = before.translationContext kind)

include same

theorem bypasses_iff_of_context : Bypasses after kind ↔ Bypasses before kind := by
  have level : effectiveLevel after kind = effectiveLevel before kind :=
    congrArg TranslationContext.level same
  have translates : after.satp.translates = before.satp.translates :=
    congrArg TranslationContext.translates same
  unfold Bypasses
  rw [level, translates]

theorem rootTable_eq_of_context : rootTable after = rootTable before := by
  have page : after.satp.rootPage = before.satp.rootPage :=
    congrArg TranslationContext.rootPage same
  unfold rootTable
  rw [page]

theorem permits_eq_of_context (entry : PageTableEntry) :
    permits entry after kind = permits entry before kind := by
  have level : effectiveLevel after kind = effectiveLevel before kind :=
    congrArg TranslationContext.level same
  have sum : after.status.sum = before.status.sum := congrArg TranslationContext.sum same
  have mxr : after.status.mxr = before.status.mxr := congrArg TranslationContext.mxr same
  unfold permits
  rw [level, sum, mxr]

/-- Harts with the same context take the same words for the leaves of a walk. -/
theorem leafOf_eq_of_context (bus : Bus) (address : Word) :
    leafOf ⟨after, bus⟩ address kind = leafOf ⟨before, bus⟩ address kind := by
  have allowed : (permits · after kind) = (permits · before kind) :=
    funext fun entry => permits_eq_of_context same entry
  unfold leafOf
  rw [rootTable_eq_of_context same, allowed]
  exact ite_congr (propext (bypasses_iff_of_context same)) (fun _ => rfl) fun _ => rfl

theorem pathOf_eq_of_context (bus : Bus) (address : Word) :
    pathOf ⟨after, bus⟩ address kind = pathOf ⟨before, bus⟩ address kind := by
  unfold pathOf
  rw [rootTable_eq_of_context same]
  exact ite_congr (propext (bypasses_iff_of_context same)) (fun _ => rfl) fun _ => rfl

/-- Harts with the same context translate alike. -/
theorem translate_outcome_of_context {bus : Bus} {address : Word}
    (inside : ∀ location ∈ pathOf ⟨before, bus⟩ address kind, bus.InMemory location) :
    (translate address kind).outcome ⟨after, bus⟩ =
      (((translate address kind).outcome ⟨before, bus⟩).1,
        ⟨after, ((translate address kind).outcome ⟨before, bus⟩).2.bus⟩) := by
  have insideToo : ∀ location ∈ pathOf ⟨after, bus⟩ address kind, bus.InMemory location := by
    rw [pathOf_eq_of_context same]
    exact inside
  rw [translate_outcome insideToo, translate_outcome inside, leafOf_eq_of_context same]
  by_cases bypasses : Bypasses before kind
  · rw [if_pos bypasses]
    exact if_pos ((bypasses_iff_of_context same).2 bypasses)
  · rw [if_neg bypasses]
    refine (if_neg fun walks => bypasses ((bypasses_iff_of_context same).1 walks)).trans ?_
    cases leafOf ⟨before, bus⟩ address kind <;> rfl

end Context

section Aged

variable {before after : Machine} {address : Word} {kind : AccessKind}
  (gains : ∀ location ∈ before.pathOf address kind,
    (before.bus.entryAt location).Gains (after.bus.entryAt location))
  (same : after.hart.translationContext kind = before.hart.translationContext kind)

include gains same

/-- Walks in the same context read the same words after these have gained bits. -/
theorem pathOf_of_gains : after.pathOf address kind = before.pathOf address kind := by
  unfold pathOf at gains ⊢
  by_cases bypasses : Bypasses before.hart kind
  · rw [if_pos bypasses]
    exact if_pos ((bypasses_iff_of_context same).2 bypasses)
  · rw [if_neg bypasses] at gains
    rw [if_neg bypasses, rootTable_eq_of_context same]
    refine (if_neg fun walks => bypasses ((bypasses_iff_of_context same).1 walks)).trans ?_
    exact Bus.walkPath_of_gains gains

/-- Walks in the same context end at the same leaves after the words on their way gained bits. -/
theorem leafOf_of_gains :
    after.leafOf address kind =
      (before.leafOf address kind).map fun leaf =>
        { leaf with entry := after.bus.entryAt leaf.location } := by
  unfold pathOf at gains
  unfold leafOf
  by_cases bypasses : Bypasses before.hart kind
  · rw [if_pos bypasses]
    exact if_pos ((bypasses_iff_of_context same).2 bypasses)
  · rw [if_neg bypasses] at gains
    rw [if_neg bypasses, rootTable_eq_of_context same]
    refine (if_neg fun walks => bypasses ((bypasses_iff_of_context same).1 walks)).trans ?_
    have allowed : (permits · after.hart kind) = (permits · before.hart kind) :=
      funext fun entry => permits_eq_of_context same entry
    rw [allowed]
    exact Bus.findLeaf_of_gains (fun gains => gains.permits_eq _ kind) gains

end Aged

end Machine

end Rv32
