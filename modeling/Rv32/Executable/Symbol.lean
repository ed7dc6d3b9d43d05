import Rv32.Executable.Header

/-!
# Names in executable files

Sections and symbols have names, which lie one behind the other in tables of their own, each with a
zero byte at its end. A table of names is UTF-8 as a whole; a file in which one is not is refused.
-/

namespace Rv32

/-- A place with a name. -/
structure NamedPlace where
  name : String
  address : Word
deriving DecidableEq, Repr

/-- A table of names. -/
structure NameTable where
  bytes : List Byte

namespace NameTable

/-- The text of these bytes, if they are UTF-8. -/
def text? (bytes : List Byte) : Option String :=
  String.fromUTF8? (bytes.map UInt8.ofBitVec).toByteArray

/-- A table without names. -/
def empty : NameTable := ⟨[]⟩

/-- The table of names in `size` bytes from `offset` on. -/
def read? (file : FileView) (offset size : Nat) : Option NameTable := do
  let bytes ← file.slice? offset size
  if (text? bytes).isSome then some ⟨bytes⟩ else none

/-- The number that stands for a section whose own number does not fit into two bytes. -/
def farSection : Nat := 0xFFFF

/-- The number of the section that `number` refers to. For a number that does not fit, the first
section header gives it. -/
def sectionNumber (sections : List SectionHeader) (number : Nat) : Nat :=
  match sections with
  | first :: _ => if number = farSection then first.link else number
  | [] => number

/-- The table of names in the section that `number` refers to. Where there is no such section, there
are no names. -/
def ofSection? (file : FileView) (sections : List SectionHeader) (number : Nat) :
    Option NameTable :=
  match sections[sectionNumber sections number]? with
  | some header => read? file header.offset header.size
  | none => some empty

/-- The name at `offset`. There is none between the bytes of one character. -/
def nameAt? (names : NameTable) (offset : Nat) : Option String :=
  text? ((names.bytes.drop offset).takeWhile (· ≠ 0))

/-- The place at `address`, if its name can be found. -/
def place? (names : NameTable) (name address : Nat) : Option NamedPlace :=
  (names.nameAt? name).map fun name => { name, address := .ofNat 32 address }

end NameTable

namespace SectionHeader

/-- The kind of a section that holds the symbols of a program. -/
def symbolTable : Nat := 2

/-- The named sections. -/
def places? (file : FileView) (header : FileHeader) (sections : List SectionHeader) :
    Option (List NamedPlace) := do
  let names ← NameTable.ofSection? file sections header.namesSection
  pure (sections.filterMap fun part => names.place? part.name part.address)

end SectionHeader

namespace FileView

/-- The number of bytes of a symbol. -/
def symbolSize (file : FileView) : Nat := 8 + 2 * file.addressSize

/-- The symbols in the last section that holds any. The section says how large its records are, and
so how many it has; they are read in the size that the format gives them. -/
def symbols? (file : FileView) (sections : List SectionHeader) : Option (List NamedPlace) :=
  match (sections.filter fun part => part.kind = SectionHeader.symbolTable).getLast? with
  | none => some []
  | some table => do
    let count := table.size / table.recordSize
    if !file.holds table.offset (count * file.symbolSize) then none
    let names ← NameTable.ofSection? file sections table.link
    let places ← file.records? table.offset count file.symbolSize fun offset => do
      let name ← file.word? offset
      let address ← file.address? (offset + file.addressSize)
      pure (names.place? name address)
    pure (places.filterMap id)

end FileView

end Rv32
