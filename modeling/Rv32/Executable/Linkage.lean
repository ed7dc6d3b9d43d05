import Rv32.Executable.Symbol

/-!
# Tables for linkers

Besides what goes into memory, an executable file may hold tables that tell a linker how to fit the
program together with others. Programs are run here as they stand, so nothing in these tables is
used. But a file in which one of them reaches past the end, or cannot be read for another reason, is
refused, which `FileView.linkable` decides.

The tables are found in two ways: some sections are such tables, and the dynamic segment is a list
of entries, each of them a tag and a value, that give the addresses and the sizes of others.
-/

namespace Rv32

/-- An entry of the dynamic segment. -/
structure DynamicEntry where
  tag : Nat
  value : Nat

namespace DynamicEntry

/-! The tags of the entries that give addresses and sizes of tables. -/

def endOfList : Nat := 0
def jumpSize : Nat := 2
def hash : Nat := 4
def names : Nat := 5
def symbols : Nat := 6
def addendAddress : Nat := 7
def addendSize : Nat := 8
def namesSize : Nat := 10
def plainAddress : Nat := 17
def plainSize : Nat := 18
def jumpKind : Nat := 20
def jumpAddress : Nat := 23
def bucketHash : Nat := 0x6FFFFEF5

end DynamicEntry

/-- What the dynamic segment says, with the segments that its addresses lie in. -/
structure DynamicTable where
  segments : List SegmentHeader
  entries : List DynamicEntry

namespace DynamicTable

/-- The offset in the file of what has this address when the program runs. -/
def fileOffset? (segments : List SegmentHeader) (address : Nat) : Option Nat :=
  let holder := segments.find? fun segment =>
    segment.kind = SegmentHeader.loadable ∧ segment.virtual ≤ address ∧
      address - segment.virtual < segment.memorySize
  holder.map fun segment => segment.offset + (address - segment.virtual)

/-- What the first dynamic segment says, up to the entry that ends the list. -/
def read? (file : FileView) (segments : List SegmentHeader) : Option DynamicTable :=
  match segments.find? fun segment => segment.kind = SegmentHeader.dynamic with
  | none => some ⟨segments, []⟩
  | some segment => do
    if segment.size ≠ 0 ∧ !file.holds segment.offset segment.size then none
    let size := 2 * file.addressSize
    let entries ← file.records? segment.offset (segment.size / size) size fun offset => do
      let tag ← file.address? offset
      let value ← file.address? (offset + file.addressSize)
      pure { tag, value : DynamicEntry }
    pure ⟨segments, entries.takeWhile fun entry => entry.tag ≠ DynamicEntry.endOfList⟩

/-- The value of the last entry with this tag. -/
def value? (table : DynamicTable) (tag : Nat) : Option Nat :=
  (table.entries.filter fun entry => entry.tag = tag).getLast?.map DynamicEntry.value

/-- The value of the last entry with this tag, zero if there is none. -/
def value (table : DynamicTable) (tag : Nat) : Nat := (table.value? tag).getD 0

/-- The offset in the file of the table that the entry with this tag gives the address of. -/
def offset? (table : DynamicTable) (tag : Nat) : Option Nat :=
  (table.value? tag).bind (fileOffset? table.segments)

/-- The offset in the file of the table that the entry with this tag gives the address of; a table
whose address is not known starts with the file. -/
def offset (table : DynamicTable) (tag : Nat) : Nat := (table.offset? tag).getD 0

end DynamicTable

namespace FileView

/-- The number of the symbol that a relocation with these data refers to. -/
def relocationSymbol (file : FileView) (data : Nat) : Nat :=
  data >>> (if file.addressSize = 4 then 8 else 32)

/-- The number of bytes of a relocation, with or without a number to add. -/
def relocationSize (file : FileView) (addend : Bool) : Nat :=
  (if addend then 3 else 2) * file.addressSize

/-- The symbols that the relocations in `size` bytes from `offset` on refer to. -/
def relocations? (file : FileView) (offset size : Nat) (addend : Bool) : Option (List Nat) :=
  if size ≠ 0 ∧ !file.holds offset size then none
  else
    file.records? offset (size / file.relocationSize addend) (file.relocationSize addend)
      fun offset => (file.address? (offset + file.addressSize)).map file.relocationSymbol

/-- The symbols that all relocations of the dynamic segment refer to. -/
def dynamicRelocations? (file : FileView) (table : DynamicTable) : Option (List Nat) := do
  let addend ← file.relocations? (table.offset DynamicEntry.addendAddress)
    (table.value DynamicEntry.addendSize) true
  let plain ← file.relocations? (table.offset DynamicEntry.plainAddress)
    (table.value DynamicEntry.plainSize) false
  let jump ← file.relocations? (table.offset DynamicEntry.jumpAddress)
    (table.value DynamicEntry.jumpSize)
    (table.value DynamicEntry.jumpKind = DynamicEntry.addendAddress)
  pure (addend ++ plain ++ jump)

/-- The number of symbols that a hash table with filters counts: those up to the end of the chain
that starts last. Chains are words, the last of which is odd. -/
def bucketHashCount? (file : FileView) (offset : Nat) : Option Nat := do
  let buckets ← file.word? offset
  let first ← file.word? (offset + 4)
  let filters ← file.word? (offset + 8)
  if buckets = 0 ∨ first = 0 ∨ filters = 0 then none
  let bucketsAt := offset + 16 + filters * file.addressSize
  let starts ← file.records? bucketsAt buckets 4 file.word?
  let last := starts.foldl max 0
  if last < first then pure 0
  else
    let chainAt := bucketsAt + 4 * buckets + 4 * (last - first)
    let chain ← file.records? chainAt ((file.bytes.size - chainAt) / 4) 4 file.word?
    let length ← chain.findIdx? fun word => word % 2 = 1
    pure (last + length + 1)

/-- The number of symbols that the hash table of the dynamic segment counts, if it has one. -/
def hashCount? (file : FileView) (table : DynamicTable) : Option Nat :=
  match table.offset? DynamicEntry.bucketHash, table.offset? DynamicEntry.hash with
  | some offset, _ => file.bucketHashCount? offset
  | none, some offset => file.word? (offset + 4)
  | none, none => some 0

/-- The number of symbols of the dynamic segment, whose symbol table does not tell it: as many as
the hash table counts and the relocations refer to. -/
def dynamicSymbolCount? (file : FileView) (table : DynamicTable) : Option Nat := do
  let relocations ← file.dynamicRelocations? table
  let count ← file.hashCount? table
  let last := relocations.foldl max 0
  pure (if last = 0 then count else max count (last + 1))

/-- Whether the tables of the dynamic segment can be read: its names, its relocations, its hash
table, and as many symbols as these call for. -/
def dynamicLinkable (file : FileView) (segments : List SegmentHeader) : Bool :=
  let check : Option Unit := do
    let table ← DynamicTable.read? file segments
    let _ ← NameTable.read? file (table.offset DynamicEntry.names)
      (table.value DynamicEntry.namesSize)
    let count ← file.dynamicSymbolCount? table
    if file.holds (table.offset DynamicEntry.symbols) (count * file.symbolSize) then some ()
    else none
  check.isSome

/-- Whether the section lies inside the file. -/
def holdsSection (file : FileView) (part : SectionHeader) : Bool := file.holds part.offset part.size

/-- The kinds of sections that hold relocations, with and without a number to add. -/
def relocationKinds : List Nat := [4, 9]

/-- The kinds of sections that hold the versions of symbols: those defined, those needed, and which
symbol has which. Only the first section of each kind is looked at. -/
def versionKinds : List Nat := [0x6FFFFFFD, 0x6FFFFFFE, 0x6FFFFFFF]

/-- Whether the sections that are tables for linkers lie inside the file. -/
def sectionsLinkable (file : FileView) (sections : List SectionHeader) : Bool :=
  (sections.all fun part =>
    part.kind ∉ relocationKinds ∨ part.size = 0 ∨ file.holdsSection part) &&
  versionKinds.all fun kind =>
    (sections.find? fun part => part.kind = kind).all file.holdsSection

/-- Whether all tables for linkers can be read. -/
def linkable (file : FileView) (segments : List SegmentHeader) (sections : List SectionHeader) :
    Bool :=
  file.dynamicLinkable segments && file.sectionsLinkable sections

end FileView

end Rv32
