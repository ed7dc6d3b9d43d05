import Mathlib.Algebra.Group.Nat.Defs
import Rv32.Proofs.VirtualPages

/-!
# The translation that the architecture describes

`Sv32` states the two-level translation in terms of numbers: where the entries for an address lie,
which of them are pointers, which leaves may be used, and what address a leaf leads to. Physical
addresses have 34 bits there, because page numbers have 22; `Sv32.cut` is what is left of one in 32
bits.

`Machine.translate_refines_sv32` says that translation is exactly that. It does not follow the code:
`Sv32.Finds` has one rule for superpages and one for pages, and the marks in the leaf are described
byte by byte (`Sv32.Marks`).
-/

namespace Rv32

namespace Sv32

/-- The number of bytes that a leaf of a level maps: a page, or a superpage of 1024 pages. -/
def span (level : Nat) : Nat := 2 ^ (12 + 10 * level)

/-- The address of the entry for a virtual address in the table with this page number. -/
def entryPlace (table : BitVec 22) (address : Word) (level : Nat) : Nat :=
  table.toNat * 4096 + address.toNat / span level % 1024 * 4

/-- The physical address behind a leaf with this page number: the offset is that of the virtual
address, and the page number is cut to the pages that leaves of the level start at. -/
def place (page : BitVec 22) (address : Word) (level : Nat) : Nat :=
  page.toNat / 2 ^ (10 * level) * span level + address.toNat % span level

/-- What 32 bits keep of an address. -/
def cut (place : Nat) : Word := BitVec.ofNat 32 place

/-- The entry is valid and leads to another table. -/
structure IsPointer (entry : PageTableEntry) : Prop where
  valid : entry.valid = true
  notReadable : entry.readable = false
  notWritable : entry.writable = false
  notExecutable : entry.executable = false

/-- Code at this level may use the page: U-mode its own pages, S-mode those of its own, and the data
of U-mode while `sum` is set. -/
def OpenTo (level : Privilege) (kind : AccessKind) (sum : Bool) (entry : PageTableEntry) : Prop :=
  match level with
  | .user => entry.user = true
  | .supervisor => entry.user = false ∨ sum = true ∧ kind ≠ .fetch
  | .machine => True

/-- The page may be used in this way. While `mxr` is set, what can be executed can be loaded. -/
def OpenFor (kind : AccessKind) (mxr : Bool) (entry : PageTableEntry) : Prop :=
  match kind with
  | .fetch => entry.executable = true
  | .load => entry.readable = true ∨ mxr = true ∧ entry.executable = true
  | .store => entry.writable = true

/-- The entry is a leaf that the hart may use for this kind of access. -/
structure Admits (hart : Hart) (kind : AccessKind) (entry : PageTableEntry) : Prop where
  valid : entry.valid = true
  readableIfWritable : entry.writable = true → entry.readable = true
  leaf : entry.readable = true ∨ entry.executable = true
  level : OpenTo (Machine.effectiveLevel hart kind) kind hart.status.sum entry
  kind : OpenFor kind hart.status.mxr entry

/-- The entry for an address in the table with this page number. -/
def entryOf (bus : Bus) (table : BitVec 22) (address : Word) (level : Nat) : PageTableEntry :=
  bus.entryAt (cut (entryPlace table address level))

/-- The leaf in the table with this page number. -/
def leafIn (bus : Bus) (table : BitVec 22) (address : Word) (level : Nat) : Leaf :=
  ⟨cut (entryPlace table address level), entryOf bus table address level, level⟩

/-- The leaf that translates an address: the entry in the root table if that is a leaf, or else the
entry in the table that it points to. -/
inductive Finds (machine : Machine) (address : Word) (kind : AccessKind) : Leaf → Prop
  | superpage
      (admits : Admits machine.hart kind
        (entryOf machine.bus machine.hart.satp.rootPage address 1)) :
      Finds machine address kind (leafIn machine.bus machine.hart.satp.rootPage address 1)
  | page {next : PageTableEntry}
      (reached : next = entryOf machine.bus machine.hart.satp.rootPage address 1)
      (pointer : IsPointer next)
      (admits : Admits machine.hart kind (entryOf machine.bus next.page address 0)) :
      Finds machine address kind (leafIn machine.bus next.page address 0)

/-- The bits that an access leaves in the leaf it uses: A, and D as well if it is a store. -/
def usage : AccessKind → Byte
  | .store => 0xC0
  | _ => 0x40

/-- The entries that the translation of an address depends on lie in main memory. -/
structure InMemory (bus : Bus) (root : BitVec 22) (address : Word) : Prop where
  first : bus.InMemory (cut (entryPlace root address 1))
  second : IsPointer (entryOf bus root address 1) →
    bus.InMemory (cut (entryPlace (entryOf bus root address 1).page address 0))

/-- From one bus to the other the leaf at some location was used: the bits for that were set in the
first byte of its word. No other byte of a memory changed, and no other device. -/
structure Marks (location : Word) (kind : AccessKind) (before after : Bus) : Prop where
  ranges : after.ranges = before.ranges
  accesses : after.accesses = before.accesses
  word : after.word location = before.word location ||| (usage kind).setWidth 32
  memory : ∃ region ram ram', before.findRegion location = some region ∧
    before.device? region.device = some (.ram ram) ∧
    after.device? region.device = some (.ram ram') ∧ ram'.size = ram.size ∧
    (∀ index, ram'.byte index =
      if index = (region.range.offsetOf location).toNat then ram.byte index ||| usage kind
      else ram.byte index) ∧
    ∀ number, region.device ≠ number → after.device? number = before.device? number

/-! ## Numbers and words -/

theorem entryAddress_eq (table : BitVec 22) (address : Word) (level : Nat) :
    Machine.entryAddress (PageTableEntry.pageBase table) address level =
      cut (entryPlace table address level) := by
  have base : (PageTableEntry.pageBase table).toNat = table.toNat * 4096 % 2 ^ 32 := by
    unfold PageTableEntry.pageBase
    rw [BitVec.toNat_shiftLeft, BitVec.toNat_setWidth, Nat.shiftLeft_eq]
    omega
  have index : (address.extractLsb' (Machine.levelShift level) 10).toNat =
      address.toNat / span level % 1024 := by
    rw [BitVec.extractLsb'_toNat, Nat.shiftRight_eq_div_pow]
    rfl
  refine BitVec.eq_of_toNat_eq ?_
  unfold Machine.entryAddress cut entryPlace
  rw [BitVec.toNat_add, BitVec.toNat_mul, BitVec.toNat_setWidth, base, index, BitVec.toNat_ofNat]
  have four : (4 : Word).toNat = 4 := rfl
  rw [four]
  omega

/-- The offset fills the low bits of a place, and the page number those above. -/
theorem testBit_place (page : BitVec 22) (address : Word) (level bit : Nat) :
    (place page address level).testBit bit =
      if bit < 12 + 10 * level then address.getLsbD bit else page.getLsbD (bit - 12) := by
  have low : address.toNat % span level < span level := Nat.mod_lt _ (Nat.two_pow_pos _)
  unfold place
  rw [Nat.mul_comm]
  unfold span at low ⊢
  rw [Nat.testBit_two_pow_mul_add _ low]
  split
  · rename_i offset
    rw [Nat.testBit_mod_two_pow, decide_eq_true offset, Bool.true_and, BitVec.testBit_toNat]
  · rename_i above
    rw [Nat.testBit_div_two_pow, BitVec.testBit_toNat]
    congr 1
    omega

/-- A leaf leads where the architecture says, cut to 32 bits. -/
theorem physical_eq (leaf : Leaf) (address : Word) (low : leaf.level < 2) :
    leaf.physical address = cut (place leaf.entry.page address leaf.level) := by
  have small : Machine.levelShift leaf.level < 32 := by
    unfold Machine.levelShift
    omega
  refine BitVec.eq_of_getLsbD_eq fun bit inside => ?_
  unfold Leaf.physical cut
  rw [getLsbD_translate _ _ small inside, BitVec.getLsbD_ofNat, decide_eq_true inside,
    Bool.true_and, testBit_place]
  change (if bit < 12 + 10 * leaf.level then _ else _) = _
  split
  · rfl
  · rename_i above
    have beyond : ¬ bit < 12 := by omega
    unfold PageTableEntry.pageBase
    rw [BitVec.getLsbD_shiftLeft, BitVec.getLsbD_setWidth, decide_eq_true inside,
      decide_eq_false beyond]
    have within : bit - 12 < 32 := by omega
    rw [decide_eq_true within]
    rfl

/-! ## Entries -/

theorem isPointer_iff (entry : PageTableEntry) :
    IsPointer entry ↔ entry.wellFormed = true ∧ entry.isPointer = true := by
  unfold PageTableEntry.wellFormed PageTableEntry.isPointer
  constructor
  · rintro ⟨valid, notReadable, notWritable, notExecutable⟩
    simp [valid, notReadable, notWritable, notExecutable]
  · intro both
    simp at both
    obtain ⟨⟨valid, formed⟩, notReadable, notExecutable⟩ := both
    refine ⟨valid, notReadable, ?_, notExecutable⟩
    rcases formed with notWritable | readable
    · exact notWritable
    · rw [notReadable] at readable
      cases readable

instance (entry : PageTableEntry) : Decidable (IsPointer entry) :=
  decidable_of_iff _ (isPointer_iff entry).symm

theorem openTo_iff (entry : PageTableEntry) (level : Privilege) (kind : AccessKind) (sum : Bool) :
    OpenTo level kind sum entry ↔ entry.permitsLevel level kind sum = true := by
  cases level with
  | user => exact Iff.rfl
  | supervisor => simp [OpenTo, PageTableEntry.permitsLevel, and_comm]
  | machine => exact iff_of_true trivial rfl

instance (level : Privilege) (kind : AccessKind) (sum : Bool) (entry : PageTableEntry) :
    Decidable (OpenTo level kind sum entry) :=
  decidable_of_iff _ (openTo_iff entry level kind sum).symm

theorem openFor_iff (entry : PageTableEntry) (kind : AccessKind) (mxr : Bool) :
    OpenFor kind mxr entry ↔ entry.permitsKind kind mxr = true := by
  cases kind with
  | fetch => exact Iff.rfl
  | load => simp [OpenFor, PageTableEntry.permitsKind]
  | store => exact Iff.rfl

instance (kind : AccessKind) (mxr : Bool) (entry : PageTableEntry) :
    Decidable (OpenFor kind mxr entry) :=
  decidable_of_iff _ (openFor_iff entry kind mxr).symm

/-- A walk ends at exactly the leaves that the architecture admits. -/
theorem admits_iff (hart : Hart) (kind : AccessKind) (entry : PageTableEntry) :
    Admits hart kind entry ↔
      entry.wellFormed = true ∧ entry.isPointer = false ∧
        Machine.permits entry hart kind = true := by
  have formed : entry.wellFormed = true ↔
      entry.valid = true ∧ (entry.writable = true → entry.readable = true) := by
    unfold PageTableEntry.wellFormed
    cases entry.writable <;> simp
  have leaf : entry.isPointer = false ↔ entry.readable = true ∨ entry.executable = true := by
    unfold PageTableEntry.isPointer
    cases entry.readable <;> simp
  unfold Machine.permits
  rw [Bool.and_eq_true_iff, ← openTo_iff, ← openFor_iff, formed, leaf]
  constructor
  · rintro ⟨valid, readableIfWritable, isLeaf, level, kind⟩
    exact ⟨⟨valid, readableIfWritable⟩, isLeaf, level, kind⟩
  · rintro ⟨⟨valid, readableIfWritable⟩, isLeaf, level, kind⟩
    exact ⟨valid, readableIfWritable, isLeaf, level, kind⟩

instance (hart : Hart) (kind : AccessKind) (entry : PageTableEntry) :
    Decidable (Admits hart kind entry) :=
  decidable_of_iff _ (admits_iff hart kind entry).symm

/-! ## Leaves -/

section Walk

variable {bus : Bus} {root : BitVec 22} {address : Word}

/-- The words that a walk reads lie in main memory if those that matter do. -/
theorem InMemory.walkPath (inside : InMemory bus root address) :
    ∀ location ∈ bus.walkPath address 2 (PageTableEntry.pageBase root), bus.InMemory location := by
  intro location member
  unfold Bus.walkPath at member
  dsimp only at member
  rw [entryAddress_eq] at member
  change location ∈ (if (entryOf bus root address 1).wellFormed &&
    (entryOf bus root address 1).isPointer then _ else _) at member
  split at member
  · rename_i both
    have pointer := (isPointer_iff _).2 (Bool.and_eq_true_iff.1 both)
    rcases List.mem_cons.1 member with rfl | deeper
    · exact inside.first
    · -- A pointer in the last table is read as well, but leads nowhere.
      have last : location ∈ [cut (entryPlace (entryOf bus root address 1).page address 0)] := by
        unfold Bus.walkPath at deeper
        rw [entryAddress_eq] at deeper
        dsimp only at deeper
        split at deeper
        · exact deeper
        · exact deeper
      rw [List.mem_singleton.1 last]
      exact inside.second pointer
  · rw [List.mem_singleton.1 member]
    exact inside.first

/-- In one table a walk ends at a leaf it may use, or goes on at a pointer. -/
theorem findLeaf_eq_some_iff {hart : Hart} {kind : AccessKind} {level : Nat} {leaf : Leaf} :
    bus.findLeaf address (Machine.permits · hart kind) (level + 1)
        (PageTableEntry.pageBase root) = some leaf ↔
      Admits hart kind (entryOf bus root address level) ∧ leafIn bus root address level = leaf ∨
        IsPointer (entryOf bus root address level) ∧
          bus.findLeaf address (Machine.permits · hart kind) level
            (PageTableEntry.pageBase (entryOf bus root address level).page) = some leaf := by
  rw [Bus.findLeaf, entryAddress_eq, admits_iff, isPointer_iff]
  have entry : bus.entryAt (cut (entryPlace root address level)) =
      entryOf bus root address level := rfl
  have here : (⟨cut (entryPlace root address level), entryOf bus root address level, level⟩ :
      Leaf) = leafIn bus root address level := rfl
  rw [entry, here]
  cases formed : (entryOf bus root address level).wellFormed with
  | false => simp
  | true =>
      cases pointer : (entryOf bus root address level).isPointer with
      | true => simp
      | false => cases Machine.permits (entryOf bus root address level) hart kind <;> simp

end Walk

/-- The leaf that is found is the leaf at which a walk ends. -/
theorem finds_iff {machine : Machine} {address : Word} {kind : AccessKind} {leaf : Leaf} :
    Finds machine address kind leaf ↔
      machine.bus.findLeaf address (Machine.permits · machine.hart kind) 2
        (Machine.rootTable machine.hart) = some leaf := by
  have none : ∀ table, machine.bus.findLeaf address (Machine.permits · machine.hart kind) 0 table ≠
      some leaf := fun _ => nofun
  unfold Machine.rootTable
  rw [findLeaf_eq_some_iff, findLeaf_eq_some_iff]
  constructor
  · rintro (admits | ⟨rfl, pointer, admits⟩)
    · exact .inl ⟨admits, rfl⟩
    · exact .inr ⟨pointer, .inl ⟨admits, rfl⟩⟩
  · rintro (⟨admits, rfl⟩ | ⟨pointer, ⟨admits, rfl⟩ | ⟨-, beyond⟩⟩)
    · exact .superpage admits
    · exact .page rfl pointer admits
    · exact absurd beyond (none _)

/-! ## Marks -/

/-- The mark of an access in its leaf is all that it leaves in memory. -/
theorem marks_mark {bus : Bus} {leaf : Leaf} (kind : AccessKind)
    (inside : bus.InMemory leaf.location) (isEntry : leaf.entry = bus.entryAt leaf.location)
    (formed : leaf.entry.wellFormed = true) :
    Marks leaf.location kind bus (bus.mark leaf kind) := by
  obtain ⟨region, ram, found, -, isRam⟩ := inside.backed
  have isWord : leaf.entry.bits = bus.word leaf.location := congrArg PageTableEntry.bits isEntry
  have isRead := isWord.trans (Bus.word_of_ram found isRam)
  have bits : PageTableEntry.usageBits kind = (usage kind).setWidth 32 := by cases kind <;> rfl
  have low : Word.byte (PageTableEntry.usageBits kind) 0 = usage kind := by cases kind <;> rfl
  have word : (bus.mark leaf kind).word leaf.location =
      bus.word leaf.location ||| (usage kind).setWidth 32 := by
    rw [← isWord, ← bits]
    exact congrArg PageTableEntry.bits (Bus.entryAt_mark kind inside isEntry formed)
  have first : Word.byte leaf.entry.bits 0 =
      ram.byte (region.range.offsetOf leaf.location).toNat := by
    rw [isRead, Ram.byte_read _ _ (by decide), Nat.add_zero]
  unfold Bus.mark at word ⊢
  by_cases used : leaf.entry.used kind = leaf.entry
  · rw [if_pos used] at word ⊢
    refine ⟨rfl, rfl, word, region, ram, ram, found, isRam, isRam, rfl, fun index => ?_,
      fun _ _ => rfl⟩
    split
    · -- The bits are set already, so to set them once more changes nothing.
      rename_i here
      have same : Word.byte (leaf.entry.used kind).bits 0 = Word.byte leaf.entry.bits 0 := by
        rw [used]
      unfold PageTableEntry.used at same
      rw [Word.byte_or, low, first, ← here] at same
      exact same.symm
    · rfl
  · rw [if_neg used] at word ⊢
    have stored := Bus.store_ram found isRam (leaf.entry.used kind).bits .word
    have within : (region.range.offsetOf leaf.location).toNat < ram.size := by
      refine Nat.lt_of_not_le fun beyond => ?_
      have zero := Ram.byte_of_size_le ram beyond
      rw [← first] at zero
      exact PageTableEntry.byte_ne_zero (Bool.and_eq_true_iff.1 formed).1 zero
    have size : ∀ (written : Ram) offset, (written.markDirty offset).size = written.size :=
      fun _ _ => rfl
    have value : leaf.entry.bits ||| PageTableEntry.usageBits kind = (leaf.entry.used kind).bits :=
      rfl
    refine ⟨stored.ranges, stored.accesses, word, region, ram, _, found, isRam, stored.written,
      (size _ _).trans (Ram.size_write ..), fun index => ?_, stored.others⟩
    have written := Ram.byte_write_or ram (region.range.offsetOf leaf.location)
      (PageTableEntry.byte_usageBits kind) index
    rw [← isRead, low, value] at written
    refine (Ram.byte_markDirty ..).trans (written.trans ?_)
    by_cases here : index = (region.range.offsetOf leaf.location).toNat
    · rw [if_pos ⟨here, here ▸ within⟩, if_pos here]
    · rw [if_neg fun both => here both.1, if_neg here]

end Sv32

namespace Machine

/-- Translation is that of the architecture. It takes addresses as they are where page tables are
not used. Else it succeeds exactly if there is a leaf that may be used, and gives the address behind
that leaf, cut to 32 bits; of the machine it changes the mark in the leaf only, and nothing if the
leaf was marked before. If there is no such leaf, it raises the page fault for the address and
changes nothing. -/
theorem translate_refines_sv32 {machine : Machine} {address : Word} {kind : AccessKind}
    (inside : ¬ Bypasses machine.hart kind →
      Sv32.InMemory machine.bus machine.hart.satp.rootPage address) :
    (Bypasses machine.hart kind →
      (translate address kind).outcome machine = (.ok address, machine)) ∧
    (¬ Bypasses machine.hart kind →
      ((∃ physical after, (translate address kind).outcome machine = (.ok physical, after)) ↔
        ∃ leaf, Sv32.Finds machine address kind leaf) ∧
      (∀ leaf, Sv32.Finds machine address kind leaf →
        ∃ bus, (translate address kind).outcome machine =
            (.ok (Sv32.cut (Sv32.place leaf.entry.page address leaf.level)),
              { machine with bus := bus }) ∧
          Sv32.Marks leaf.location kind machine.bus bus ∧
          (leaf.entry.used kind = leaf.entry → bus = machine.bus)) ∧
      ((¬ ∃ leaf, Sv32.Finds machine address kind leaf) →
        (translate address kind).outcome machine =
          (.error (kind.pageFault address), machine))) := by
  have path : ∀ location ∈ machine.pathOf address kind, machine.bus.InMemory location := by
    unfold pathOf
    split
    · exact nofun
    · rename_i walks
      exact (inside walks).walkPath
  have translated := translate_outcome path
  refine ⟨fun bypasses => translated.trans (if_pos bypasses), fun walks => ?_⟩
  rw [if_neg walks] at translated
  have finds : ∀ leaf, Sv32.Finds machine address kind leaf ↔
      machine.leafOf address kind = some leaf := by
    intro leaf
    unfold leafOf
    rw [if_neg walks, Sv32.finds_iff]
  have found : ∀ leaf, Sv32.Finds machine address kind leaf →
      (translate address kind).outcome machine =
        (.ok (Sv32.cut (Sv32.place leaf.entry.page address leaf.level)),
          { machine with bus := machine.bus.mark leaf kind }) := by
    intro leaf isFound
    have isLeaf := (finds leaf).1 isFound
    obtain ⟨-, -, -, -, -, low⟩ := leafOf_eq_some isLeaf
    rw [translated, isLeaf, ← Sv32.physical_eq leaf address low]
  have missing : (¬ ∃ leaf, Sv32.Finds machine address kind leaf) →
      (translate address kind).outcome machine = (.error (kind.pageFault address), machine) := by
    intro noLeaf
    have isNone : machine.leafOf address kind = none :=
      Option.eq_none_iff_forall_ne_some.2 fun leaf isLeaf => noLeaf ⟨leaf, (finds leaf).2 isLeaf⟩
    rw [translated, isNone]
  refine ⟨⟨?_, ?_⟩, fun leaf isFound => ?_, missing⟩
  · rintro ⟨physical, after, ran⟩
    refine Classical.byContradiction fun noLeaf => ?_
    rw [missing noLeaf] at ran
    cases ran
  · rintro ⟨leaf, isFound⟩
    exact ⟨_, _, found leaf isFound⟩
  · obtain ⟨member, -, isEntry, formed, -, -⟩ := leafOf_eq_some ((finds leaf).1 isFound)
    refine ⟨_, found leaf isFound, Sv32.marks_mark kind (path _ member) isEntry formed, ?_⟩
    exact fun used => if_pos used

/-- A supervisor whose root table leads back to itself, and from there to the page at 0x2000. -/
def mappedMachine : Machine where
  hart :=
    { Hart.initial .standard with
      privilege := .supervisor
      satp := .ofWord _ 0x80000000 }
  bus := .allMemory [0x01, 0, 0, 0, 0x07, 0x08, 0, 0]

/-- The supervisor may store to the page, which marks the leaf as accessed and dirty, but it may not
fetch from it. -/
theorem mappedMachine_translates :
    (∃ bus, (translate 0x1234 .store).outcome mappedMachine =
        (.ok 0x2234, { mappedMachine with bus := bus }) ∧ bus.word 4 = 0x8C7) ∧
      (translate 0x1234 .fetch).outcome mappedMachine =
        (.error (.instructionPageFault 0x1234), mappedMachine) := by
  have inside : Sv32.InMemory mappedMachine.bus mappedMachine.hart.satp.rootPage 0x1234 :=
    ⟨Bus.inMemory_allMemory .., fun _ => Bus.inMemory_allMemory ..⟩
  let root := Sv32.entryOf mappedMachine.bus mappedMachine.hart.satp.rootPage 0x1234 1
  let leaf := Sv32.leafIn mappedMachine.bus root.page 0x1234 0
  have pointer : Sv32.IsPointer root := by decide +kernel
  constructor
  · obtain ⟨-, walks⟩ := @translate_refines_sv32 mappedMachine 0x1234 .store fun _ => inside
    obtain ⟨-, found, -⟩ := walks (by decide +kernel)
    have finds : Sv32.Finds mappedMachine 0x1234 .store leaf :=
      .page rfl pointer (by decide +kernel)
    have physical : Sv32.cut (Sv32.place leaf.entry.page 0x1234 leaf.level) = 0x2234 := by
      decide +kernel
    have location : leaf.location = 4 := by decide +kernel
    obtain ⟨bus, ran, marks, -⟩ := found leaf finds
    have word := marks.word
    rw [physical] at ran
    rw [location] at word
    exact ⟨bus, ran, word.trans (by decide +kernel)⟩
  · obtain ⟨-, walks⟩ := @translate_refines_sv32 mappedMachine 0x1234 .fetch fun _ => inside
    obtain ⟨-, -, missing⟩ := walks (by decide +kernel)
    refine missing ?_
    rintro ⟨leaf, admits | ⟨rfl, -, admits⟩⟩
    · exact absurd admits.kind (by decide +kernel)
    · exact absurd admits.kind (by decide +kernel)

end Machine

end Rv32
