import Rv32.Word

/-!
# The host-target interface

A test program reports its result through two mailboxes of 64 bits: `tohost` at offset 0 and
`fromhost` at offset 0x40. An access belongs to the mailbox that holds its first byte, and what
reaches past the end of that mailbox is lost.
-/

namespace Rv32

/-- The two mailboxes. -/
structure Htif where
  tohost : DoubleWord
  fromhost : DoubleWord
deriving DecidableEq, Repr

namespace Htif

/-- The bytes from the start of `tohost` to the end of `fromhost`. -/
def length : Word := 0x48

/-- The offset of `fromhost`. -/
def fromhostOffset : Nat := 0x40

/-- Empty mailboxes. -/
def empty : Htif := ⟨0, 0⟩

/-- One of the mailboxes. -/
inductive Mailbox where
  | tohost
  | fromhost
deriving DecidableEq, Repr

/-- The mailbox that holds the byte at `offset`, with the number of the byte in it. -/
def mailbox? (offset : Word) : Option (Mailbox × Nat) :=
  let offset := offset.toNat
  if offset < 8 then some (.tohost, offset)
  else if fromhostOffset ≤ offset ∧ offset < fromhostOffset + 8 then
    some (.fromhost, offset - fromhostOffset)
  else none

/-- The contents of a mailbox. -/
def get (htif : Htif) : Mailbox → DoubleWord
  | .tohost => htif.tohost
  | .fromhost => htif.fromhost

/-- The interface with new contents in one mailbox. -/
def set (htif : Htif) (box : Mailbox) (value : DoubleWord) : Htif :=
  match box with
  | .tohost => { htif with tohost := value }
  | .fromhost => { htif with fromhost := value }

/-- The bytes at `offset`, zero outside the mailboxes. -/
def read (htif : Htif) (offset : Word) (width : Width) : Word :=
  match mailbox? offset with
  | some (box, byte) => (htif.get box >>> (8 * byte)).setWidth 32 &&& width.mask
  | none => 0

/-- Replace the bytes at `offset` by the low bytes of `value`. -/
def write (htif : Htif) (offset value : Word) (width : Width) : Htif :=
  match mailbox? offset with
  | some (box, byte) =>
    let mask : DoubleWord := width.mask.setWidth 64 <<< (8 * byte)
    htif.set box (htif.get box &&& ~~~mask ||| value.setWidth 64 <<< (8 * byte) &&& mask)
  | none => htif

end Htif

end Rv32
