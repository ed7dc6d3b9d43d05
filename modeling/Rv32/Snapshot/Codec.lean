import Rv32.Snapshot

/-!
# Snapshots as bytes

A snapshot is written field by field with no padding: words and the cycle counter with their least
significant byte first, the level as a word, a truth value as one byte, and the reservation as one
byte that says whether the address follows. `Snapshot.decode?` reads a snapshot off the start of a
list of bytes and gives what is left over. `Hart.save` and `Hart.restoreSaved` go from a hart to
bytes and back.
-/

namespace Rv32

/-- A reader of values off the start of a list of bytes. -/
abbrev ByteReader := StateT (List Byte) Option

namespace ByteReader

def byte : ByteReader Byte := fun bytes =>
  match bytes with
  | [] => none
  | first :: rest => some (first, rest)

/-- Four bytes, the least significant first. -/
def word : ByteReader Word := do
  let first ← byte
  let second ← byte
  let third ← byte
  let fourth ← byte
  pure (fourth ++ third ++ second ++ first)

/-- Two words, the less significant first. -/
def doubleWord : ByteReader DoubleWord := do
  let low ← word
  let high ← word
  pure (high ++ low)

/-- A byte that is zero or one. -/
def bool : ByteReader Bool := do
  let value ← byte
  if value = 0 then pure false
  else if value = 1 then pure true
  else failure

/-- A level, by its number among the three. -/
def privilege : ByteReader Privilege := do
  let value ← word
  if value = 0 then pure .user
  else if value = 1 then pure .supervisor
  else if value = 2 then pure .machine
  else failure

/-- A word, if the byte before it says that there is one. -/
def optionalWord : ByteReader (Option Word) := do
  if ← bool then some <$> word else pure none

/-- A number of words, one after the other. -/
def words : (count : Nat) → ByteReader (Vector Word count)
  | 0 => pure #v[]
  | count + 1 => do
    let before ← words count
    let last ← word
    pure (before.push last)

end ByteReader

namespace ByteWriter

/-- Four bytes, the least significant first. -/
def word (value : Word) : List Byte :=
  [Word.byte value 0, Word.byte value 1, Word.byte value 2, Word.byte value 3]

/-- Two words, the less significant first. -/
def doubleWord (value : DoubleWord) : List Byte :=
  word (value.setWidth 32) ++ word (value.extractLsb' 32 32)

def bool (value : Bool) : List Byte := [if value then 1 else 0]

/-- The number of a level among the three, as a word. -/
def privilege (level : Privilege) : List Byte :=
  word (match level with
    | .user => 0
    | .supervisor => 1
    | .machine => 2)

def optionalWord : Option Word → List Byte
  | none => bool false
  | some value => bool true ++ word value

end ByteWriter

namespace Snapshot

/-- The bytes of a snapshot. -/
def encode (snapshot : Snapshot) : List Byte :=
  snapshot.x.toList.flatMap ByteWriter.word ++
    ByteWriter.word snapshot.pc ++
    ByteWriter.privilege snapshot.privilege ++
    ByteWriter.bool snapshot.halted ++
    ByteWriter.optionalWord snapshot.reservation ++
    ByteWriter.doubleWord snapshot.mcycle ++
    [snapshot.mstatus, snapshot.medeleg, snapshot.mideleg, snapshot.mie, snapshot.mip,
      snapshot.mtvec, snapshot.mcounteren, snapshot.mscratch, snapshot.mepc, snapshot.mcause,
      snapshot.mtval, snapshot.stvec, snapshot.scounteren, snapshot.sscratch, snapshot.sepc,
      snapshot.scause, snapshot.stval, snapshot.satp].flatMap ByteWriter.word

/-- A reader of snapshots. -/
def reader : ByteReader Snapshot := do
  let x ← ByteReader.words 32
  let pc ← ByteReader.word
  let privilege ← ByteReader.privilege
  let halted ← ByteReader.bool
  let reservation ← ByteReader.optionalWord
  let mcycle ← ByteReader.doubleWord
  let mstatus ← ByteReader.word
  let medeleg ← ByteReader.word
  let mideleg ← ByteReader.word
  let mie ← ByteReader.word
  let mip ← ByteReader.word
  let mtvec ← ByteReader.word
  let mcounteren ← ByteReader.word
  let mscratch ← ByteReader.word
  let mepc ← ByteReader.word
  let mcause ← ByteReader.word
  let mtval ← ByteReader.word
  let stvec ← ByteReader.word
  let scounteren ← ByteReader.word
  let sscratch ← ByteReader.word
  let sepc ← ByteReader.word
  let scause ← ByteReader.word
  let stval ← ByteReader.word
  let satp ← ByteReader.word
  pure
    { x, pc, privilege, halted, reservation, mcycle, mstatus, medeleg, mideleg, mie, mip, mtvec,
      mcounteren, mscratch, mepc, mcause, mtval, stvec, scounteren, sscratch, sepc, scause, stval,
      satp }

/-- The snapshot at the start of a list of bytes, with the bytes behind it. -/
def decode? (bytes : List Byte) : Option (Snapshot × List Byte) := reader.run bytes

end Snapshot

/-- Why saved bytes are refused. -/
inductive SavedError where
  | malformed
  | refused (error : SnapshotError)
deriving DecidableEq, Repr

namespace Hart

/-- The state of the hart as bytes. -/
def save (hart : Hart) : List Byte := hart.snapshot.encode

/-- The hart in the state that is saved at the start of the bytes, with empty caches. -/
def restoreSaved (hart : Hart) (bytes : List Byte) : Except SavedError (Logged Hart) :=
  match Snapshot.decode? bytes with
  | none => .error .malformed
  | some (snapshot, _) => (hart.restore snapshot).mapError .refused

end Hart

end Rv32
