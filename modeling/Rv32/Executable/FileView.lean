import Rv32.Word

/-!
# Numbers and records in a file

An executable file is a string of bytes in which records lie at offsets that other records give. A
`FileView` reads numbers, slices and tables of records from it. Nothing is read from past the end of
the file, not even in part.
-/

namespace Rv32

/-- The bytes of a file. -/
abbrev FileBytes := Array Byte

/-- Which byte of a number comes first in a file. -/
inductive ByteOrder where
  | leastFirst
  | mostFirst
deriving DecidableEq, Repr

namespace ByteOrder

/-- The order that a file names by this code. -/
def ofCode? (code : Byte) : Option ByteOrder :=
  if code = 1 then some leastFirst else if code = 2 then some mostFirst else none

/-- The number that bytes stand for. -/
def value (order : ByteOrder) (bytes : List Byte) : Nat :=
  match order with
  | leastFirst => bytes.foldr (fun byte rest => byte.toNat + 256 * rest) 0
  | mostFirst => bytes.foldl (fun rest byte => 256 * rest + byte.toNat) 0

end ByteOrder

/-- A file, with the order of bytes in its numbers and the number of bytes in its addresses. -/
structure FileView where
  bytes : FileBytes
  order : ByteOrder
  addressSize : Nat

namespace FileView

/-- Whether `count` bytes from `offset` on lie inside the file. -/
def holds (file : FileView) (offset count : Nat) : Bool := offset + count ≤ file.bytes.size

/-- The `count` bytes from `offset` on. -/
def slice? (file : FileView) (offset count : Nat) : Option (List Byte) :=
  if file.holds offset count then some (file.bytes.extract offset (offset + count)).toList else none

/-- The number in the `count` bytes from `offset` on. -/
def number? (file : FileView) (offset count : Nat) : Option Nat :=
  (file.slice? offset count).map file.order.value

/-- The number in two bytes. -/
def half? (file : FileView) (offset : Nat) : Option Nat := file.number? offset 2

/-- The number in four bytes. -/
def word? (file : FileView) (offset : Nat) : Option Nat := file.number? offset 4

/-- An address, or another number of its size. -/
def address? (file : FileView) (offset : Nat) : Option Nat := file.number? offset file.addressSize

/-- The records of a table from `offset` on, each of which `read` finds by its own offset. -/
def records? {α : Type} (file : FileView) (offset count size : Nat) (read : Nat → Option α) :
    Option (List α) :=
  if count = 0 ∨ file.holds offset (count * size) then
    (List.range count).mapM fun index => read (offset + index * size)
  else none

/-- The first bytes of every file of this format. -/
def mark : List Byte := [0x7F, 0x45, 0x4C, 0x46]

/-- The number of bytes in the part of a file that says how to read the rest. -/
def identificationSize : Nat := 16

/-- The number of bytes of an address in a file of the class with this code. -/
def addressSize? (code : Byte) : Option Nat :=
  if code = 1 then some 4 else if code = 2 then some 8 else none

/-- A file of this format, as its first bytes say to read it. -/
def ofBytes? (bytes : FileBytes) : Option FileView := do
  if bytes.size < identificationSize ∨ (bytes.extract 0 mark.length).toList ≠ mark then none
  let addressSize ← addressSize? (bytes.getD 4 0)
  let order ← ByteOrder.ofCode? (bytes.getD 5 0)
  pure { bytes, order, addressSize }

end FileView

end Rv32
