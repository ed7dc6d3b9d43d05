import Rv32.Executable.FileView

/-!
# Headers of executable files

The header of a file tells where the headers of its segments and of its sections are. Segments are
the parts that go into memory; sections are the parts that tools tell apart, and have names.

In each record the places of the fields follow from the size of an address.
-/

namespace Rv32

/-- The header of a file. -/
structure FileHeader where
  entry : Nat
  segmentsAt : Nat
  sectionsAt : Nat
  segmentCount : Nat
  sectionCount : Nat
  namesSection : Nat

/-- The header of a segment. -/
structure SegmentHeader where
  kind : Nat
  offset : Nat
  virtual : Nat
  physical : Nat
  size : Nat
  memorySize : Nat

namespace SegmentHeader

/-- The kind of a segment that goes into memory. -/
def loadable : Nat := 1

/-- The kind of a segment that tells a linker where its tables are. -/
def dynamic : Nat := 2

end SegmentHeader

/-- The header of a section, whose name is given by its offset in a table of names. -/
structure SectionHeader where
  name : Nat
  kind : Nat
  address : Nat
  offset : Nat
  size : Nat
  link : Nat
  recordSize : Nat

namespace FileView

/-- The header at the start of a file. -/
def header? (file : FileView) : Option FileHeader := do
  let rest := identificationSize + 8 + 3 * file.addressSize
  let entry ← file.address? (identificationSize + 8)
  let segmentsAt ← file.address? (identificationSize + 8 + file.addressSize)
  let sectionsAt ← file.address? (identificationSize + 8 + 2 * file.addressSize)
  let segmentCount ← file.half? (rest + 8)
  let sectionCount ← file.half? (rest + 12)
  let namesSection ← file.half? (rest + 14)
  pure { entry, segmentsAt, sectionsAt, segmentCount, sectionCount, namesSection }

/-- The number of bytes of a segment header. -/
def segmentHeaderSize (file : FileView) : Nat := if file.addressSize = 4 then 32 else 56

/-- The segment header at `offset`. -/
def segmentHeader? (file : FileView) (offset : Nat) : Option SegmentHeader := do
  let kind ← file.word? offset
  let place ← file.address? (offset + file.addressSize)
  let virtual ← file.address? (offset + 2 * file.addressSize)
  let physical ← file.address? (offset + 3 * file.addressSize)
  let size ← file.address? (offset + 4 * file.addressSize)
  let memorySize ← file.address? (offset + 5 * file.addressSize)
  pure { kind, offset := place, virtual, physical, size, memorySize }

/-- The headers of all segments. -/
def segmentHeaders? (file : FileView) (header : FileHeader) : Option (List SegmentHeader) :=
  file.records? header.segmentsAt header.segmentCount file.segmentHeaderSize file.segmentHeader?

/-- The number of bytes of a section header. -/
def sectionHeaderSize (file : FileView) : Nat := 16 + 6 * file.addressSize

/-- The section header at `offset`. -/
def sectionHeader? (file : FileView) (offset : Nat) : Option SectionHeader := do
  let name ← file.word? offset
  let kind ← file.word? (offset + 4)
  let address ← file.address? (offset + 8 + file.addressSize)
  let place ← file.address? (offset + 8 + 2 * file.addressSize)
  let size ← file.address? (offset + 8 + 3 * file.addressSize)
  let link ← file.word? (offset + 8 + 4 * file.addressSize)
  let recordSize ← file.address? (offset + 16 + 5 * file.addressSize)
  pure { name, kind, address, offset := place, size, link, recordSize }

/-- The headers of all sections. If there are any, the first one stands for no section: where the
header of the file gives zero as their number, it tells how many they are. -/
def sectionHeaders? (file : FileView) (header : FileHeader) : Option (List SectionHeader) :=
  if header.sectionsAt = 0 then some []
  else do
    let first ← file.sectionHeader? header.sectionsAt
    let count := if header.sectionCount = 0 then first.size else header.sectionCount
    let rest ←
      file.records? (header.sectionsAt + file.sectionHeaderSize) (count - 1) file.sectionHeaderSize
        file.sectionHeader?
    pure (first :: rest)

end FileView

end Rv32
