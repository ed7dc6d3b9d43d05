import Rv32.Instruction.Decode
import Rv32.Machine
import Rv32.Translation.PageTable

/-!
# Memory as programs see it

A program uses virtual addresses. Each access checks its alignment, translates its address, first in
the caches and then by a walk through the page tables, and goes to the device it finds; what is not
mapped reads as zero and loses what is written. Instructions come from main memory only.

`Machine.translate` is translation without the caches.
-/

namespace Rv32.Machine

/-- The level that decides on an access: loads and stores may be made in the name of another one. -/
def effectiveLevel (hart : Hart) (kind : AccessKind) : Privilege :=
  match kind with
  | .fetch => hart.privilege
  | _ => if hart.status.mprv then hart.status.mpp else hart.privilege

/-- The number of bits of an address below the index into a table of `level`. -/
def levelShift (level : Nat) : Nat := 12 + 10 * level

/-- The address of the entry for `address` in a table of `level`. -/
def entryAddress (table address : Word) (level : Nat) : Word :=
  table + (address.extractLsb' (levelShift level) 10).setWidth 32 * 4

/-- Whether an access may use a leaf. -/
def permits (entry : PageTableEntry) (hart : Hart) (kind : AccessKind) : Bool :=
  entry.permitsLevel (effectiveLevel hart kind) kind hart.status.sum &&
    entry.permitsKind kind hart.status.mxr

/-- Note in a leaf that it was used. -/
def markUsed (location : Word) (entry : PageTableEntry) (kind : AccessKind) : Effect Unit :=
  if entry.used kind = entry then pure ()
  else modifyBus fun bus => bus.store location (entry.used kind).bits .word

/-- Follow the page tables for `address` through `levels` levels, from the table at `table` on. -/
def walk (address : Word) (kind : AccessKind) : (levels : Nat) → (table : Word) → Attempt Word
  | 0, _ => throw (kind.pageFault address)
  | level + 1, table => do
    let location := entryAddress table address level
    let entry : PageTableEntry := ⟨← loadPhysical location .word⟩
    if !entry.wellFormed then throw (kind.pageFault address)
    else if entry.isPointer then walk address kind level (PageTableEntry.pageBase entry.page)
    else if !permits entry (← getHart) kind then throw (kind.pageFault address)
    else
      markUsed location entry kind
      pure ((entry.used kind).translate address (levelShift level))

/-- The physical address of a virtual one. In M-mode and without page tables they are the same. -/
def translate (address : Word) (kind : AccessKind) : Attempt Word := do
  let hart ← getHart
  if effectiveLevel hart kind = .machine ∨ hart.satp.translates = false then pure address
  else walk address kind 2 (PageTableEntry.pageBase hart.satp.rootPage)

/-- The physical address of a virtual one and the region it lies in, from the caches if they know
it. What leads to main memory is kept in them. -/
def locate (address : Word) (kind : AccessKind) : Attempt (Word × Option Region) := do
  let hart ← getHart
  match hart.tlb.lookup address kind with
  | some (physical, region) => pure (physical, some region)
  | none =>
    let physical ← translate address kind
    let region? ← findRegion physical
    match region? with
    | some region =>
      modifyHart fun hart => { hart with tlb := hart.tlb.insert address physical region kind }
      pure (physical, some region)
    | none => pure (physical, none)

/-- Read from a place that was located. -/
def readLocated (physical : Word) (region? : Option Region) (width : Width) : Effect Word :=
  match region? with
  | some region => readRegion region (region.range.offsetOf physical) width
  | none => do
    report (.unmappedLoad physical)
    pure 0

/-- Write to a place that was located. -/
def writeLocated (physical : Word) (region? : Option Region) (value : Word) (width : Width) :
    Effect Unit :=
  match region? with
  | some region =>
    modifyBus fun bus =>
      let offset := region.range.offsetOf physical
      let bus := bus.write region offset (value &&& width.mask) width
      if region.isMemory then bus.markDirty region offset else bus
  | none => report (.unmappedStore physical)

/-- Load from a virtual address. -/
def load (address : Word) (width : Width) : Attempt Word := do
  if ¬ width.Aligned address then throw (.loadAddressMisaligned address)
  let (physical, region?) ← locate address .load
  readLocated physical region? width

/-- Store the low bytes of `value` at a virtual address. -/
def store (address value : Word) (width : Width) : Attempt Unit := do
  if ¬ width.Aligned address then throw (.storeAddressMisaligned address)
  let (physical, region?) ← locate address .store
  writeLocated physical region? value width

/-- Load a word and reserve its physical address. -/
def loadReserved (address : Word) : Attempt Word := do
  if ¬ Width.word.Aligned address then throw (.loadAddressMisaligned address)
  let (physical, region?) ← locate address .load
  modifyHart fun hart => { hart with reservation := some physical }
  readLocated physical region? .word

/-- Store a word if its physical address is reserved, and tell whether that was so. The reservation
ends in any case, even if the address turns out to be bad. -/
def storeConditional (address value : Word) : Attempt Bool := do
  let reserved := (← getHart).reservation
  modifyHart fun hart => { hart with reservation := none }
  if ¬ Width.word.Aligned address then throw (.storeAddressMisaligned address)
  let (physical, region?) ← locate address .store
  if reserved = some physical then
    writeLocated physical region? value .word
    pure true
  else pure false

/-- Replace a word by what `change` makes of it and give the old word. All faults are those of a
store. -/
def atomicUpdate (address : Word) (change : Word → Word) : Attempt Word := do
  if ¬ Width.word.Aligned address then throw (.storeAddressMisaligned address)
  let (physical, region?) ← locate address .store
  let old ← readLocated physical region? .word
  writeLocated physical region? (change old) .word
  pure old

/-- Fetch one parcel of an instruction. -/
def fetchParcel (address : Word) : Attempt Half := do
  let (physical, region?) ← locate address .fetch
  match region? with
  | some region =>
    if region.isMemory then
      let value ← readRegion region (region.range.offsetOf physical) .half
      pure (value.setWidth 16)
    else throw (.instructionAccessFault address)
  | none => throw (.instructionAccessFault address)

/-- Fetch the instruction at the program counter: one parcel if it is compressed, else two, each
translated on its own. -/
def fetch : Attempt Word := do
  let pc := (← getHart).pc
  if ¬ Width.half.Aligned pc then throw (.instructionAddressMisaligned pc)
  let low ← fetchParcel pc
  if Instruction.isCompressed low then pure (low.setWidth 32)
  else
    let high ← fetchParcel (pc + 2)
    pure (high ++ low)

end Rv32.Machine
