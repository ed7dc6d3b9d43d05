import Rv32.Executable.Linkage

/-!
# Executable files

The files that programs come in: ELF files, of both sizes of addresses and both orders of bytes. An
`Executable` keeps of such a file what is needed to run it and to find places in it by name. A file
is refused as a whole if one of its tables reaches past the end or its names are not text.
-/

namespace Rv32

/-- A part of a file that goes into memory. A part that reaches past the end of the file has no
contents. -/
structure Segment where
  physical : Word
  contents : Option (List Byte)
deriving DecidableEq, Repr

/-- What a file says about the program in it. Of numbers that are too large for a word the low bits
count. -/
structure Executable where
  entry : Word
  segments : List Segment
  sections : List NamedPlace
  symbols : List NamedPlace
deriving DecidableEq, Repr

namespace Executable

/-- The segment of a header, if it goes into memory. -/
def segment? (file : FileView) (header : SegmentHeader) : Option Segment :=
  if header.kind = SegmentHeader.loadable then
    some
      { physical := .ofNat 32 header.physical
        contents := file.slice? header.offset header.size }
  else none

/-- The program in a file, unless it has another format or is malformed. -/
def ofBytes? (bytes : FileBytes) : Option Executable := do
  let file ← FileView.ofBytes? bytes
  let header ← file.header?
  let segments ← file.segmentHeaders? header
  let sections ← file.sectionHeaders? header
  let places ← SectionHeader.places? file header sections
  let symbols ← file.symbols? sections
  if !file.linkable segments sections then none
  pure
    { entry := .ofNat 32 header.entry
      segments := segments.filterMap (segment? file)
      sections := places
      symbols }

/-- The address of the first section with this name. -/
def sectionAddress? (program : Executable) (name : String) : Option Word :=
  (program.sections.find? fun place => place.name = name).map NamedPlace.address

/-- The address of the first symbol with this name. -/
def symbolAddress? (program : Executable) (name : String) : Option Word :=
  (program.symbols.find? fun place => place.name = name).map NamedPlace.address

end Executable

end Rv32
