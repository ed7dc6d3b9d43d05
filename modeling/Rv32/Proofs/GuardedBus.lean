import Rv32.Proofs.BusMap
import Rv32.Proofs.GuardedOperations
import Rv32.Translation.PageTable

/-!
# A bus and caches that ask first

Devices put words together and take them apart by shifts, the bus looks devices up by their number
and takes offsets from ranges, and the caches are tables. Here each of these is asked about before
it is done.

Devices and caches have nothing to refuse. The bus needs to be sound (`Bus.Sound`): a number that
stands in its address map is that of a device. An offset is only taken in a region that was found
for the address.
-/

namespace Rv32.Checked

/-! ## Devices -/

/-- The number of bytes of an access. -/
def count (width : Width) : Checked Nat := do
  return (← shiftLeft (1 : Word) width.log2).toNat

/-- The number of bits below a byte. -/
def bitsBelow (byte : Word) : Checked Nat := do return (← mul 8 byte).toNat

/-- The bytes of a memory from `offset` on, the first of them least significant. -/
def readRam (ram : Ram) (offset : Word) (width : Width) : Checked Word := do
  (List.range (← count width)).foldlM (fun value index => do
    let places ← bitsBelow (BitVec.ofNat 32 index)
    return value ||| (← shiftLeft ((ram.byte (offset.toNat + index)).setWidth 32) places)) 0

/-- Store the low bytes of `value` from `offset` on, the least significant first. -/
def writeRam (ram : Ram) (offset value : Word) (width : Width) : Checked Ram := do
  (List.range (← count width)).foldlM (fun ram index => do
    let places ← bitsBelow (BitVec.ofNat 32 index)
    return ram.setByte (offset.toNat + index) ((← shiftRight value places).setWidth 8)) ram

/-- The mailbox that holds the byte at `offset`, with the number of the byte in it. -/
def mailbox? (offset : Word) : Checked (Option (Htif.Mailbox × Word)) := do
  if offset.toNat < 8 then return some (.tohost, offset)
  else if 0x40 ≤ offset.toNat ∧ offset.toNat < 0x48 then
    return some (.fromhost, ← sub offset 0x40)
  else return none

/-- The bytes at `offset`, zero outside the mailboxes. -/
def readHtif (htif : Htif) (offset : Word) (width : Width) : Checked Word := do
  match ← mailbox? offset with
  | some (box, byte) =>
    return (← shiftRight (htif.get box) (← bitsBelow byte)).setWidth 32 &&& width.mask
  | none => return 0

/-- Replace the bytes at `offset` by the low bytes of `value`. -/
def writeHtif (htif : Htif) (offset value : Word) (width : Width) : Checked Htif := do
  match ← mailbox? offset with
  | some (box, byte) =>
    let mask ← shiftLeft (width.mask.setWidth 64 : DoubleWord) (← bitsBelow byte)
    let moved ← shiftLeft (value.setWidth 64 : DoubleWord) (← bitsBelow byte)
    return htif.set box (htif.get box &&& ~~~mask ||| moved &&& mask)
  | none => return htif

/-- The answer of a device to a read, and the device after it. -/
def readDevice (device : Device) (offset : Word) (width : Width) : Checked (Word × Device) :=
  match device with
  | .ram memory => return (← readRam memory offset width, device)
  | .htif boxes => return (← readHtif boxes offset width, device)
  | .peripheral _ => return device.read offset width

/-- The device after a write of the low bytes of `value`. -/
def writeDevice (device : Device) (offset value : Word) (width : Width) : Checked Device :=
  match device with
  | .ram memory => return .ram (← writeRam memory offset value width)
  | .htif boxes => return .htif (← writeHtif boxes offset value width)
  | .peripheral _ => return device.write offset value width

theorem count_eq (width : Width) : count width = .ok width.bytes := by
  cases width <;> rfl

theorem bitsBelow_eq {index : Nat} (small : index < 8) :
    bitsBelow (BitVec.ofNat 32 index) = .ok (8 * index) := by
  have eight : (8 : Word).toNat = 8 := rfl
  have same : (BitVec.ofNat 32 index).toNat = index := by
    rw [BitVec.toNat_ofNat]
    omega
  rw [bitsBelow, mul_eq (by rw [eight, same]; omega), ok_bind, BitVec.toNat_mul, eight, same,
    Nat.mod_eq_of_lt (by omega)]
  rfl

/-- The byte at an index below the width has a place in the word. -/
theorem bitsBelow_range {width : Width} {index : Nat} (member : index ∈ List.range width.bytes) :
    bitsBelow (BitVec.ofNat 32 index) = .ok (8 * index) ∧ 8 * index < 32 := by
  have few : width.bytes ≤ 4 := by cases width <;> decide
  have inside := List.mem_range.1 member
  exact ⟨bitsBelow_eq (by omega), by omega⟩

/-- A word is made up of its bytes, each moved to its place. -/
theorem foldl_bytes (bytes : Nat → Byte) (width : Width) :
    (List.range width.bytes).foldl (fun value index =>
      value ||| (bytes index).setWidth 32 <<< (8 * index)) 0 =
      Word.ofBytes fun index => if index < width.bytes then bytes index else 0 := by
  cases width with
  | byte =>
      change 0#32 ||| (bytes 0).setWidth 32 <<< 0 =
        (0 : Byte) ++ (0 : Byte) ++ (0 : Byte) ++ bytes 0
      ext index inside
      grind
  | half =>
      change 0#32 ||| (bytes 0).setWidth 32 <<< 0 ||| (bytes 1).setWidth 32 <<< 8 =
        (0 : Byte) ++ (0 : Byte) ++ bytes 1 ++ bytes 0
      ext index inside
      grind
  | word =>
      change 0#32 ||| (bytes 0).setWidth 32 <<< 0 ||| (bytes 1).setWidth 32 <<< 8 |||
          (bytes 2).setWidth 32 <<< 16 ||| (bytes 3).setWidth 32 <<< 24 =
        bytes 3 ++ bytes 2 ++ bytes 1 ++ bytes 0
      ext index inside
      grind

theorem readRam_eq (ram : Ram) (offset : Word) (width : Width) :
    readRam ram offset width = .ok (ram.read offset width) := by
  rw [readRam, count_eq, ok_bind, Ram.read, ← foldl_bytes]
  refine foldlM_eq (fun index member value => ?_) 0
  obtain ⟨places, inside⟩ := bitsBelow_range member
  rw [places, ok_bind, shiftLeft_eq _ inside]
  rfl

theorem writeRam_eq (ram : Ram) (offset value : Word) (width : Width) :
    writeRam ram offset value width = .ok (ram.write offset value width) := by
  rw [writeRam, count_eq, ok_bind]
  refine foldlM_eq (fun index member ram => ?_) ram
  obtain ⟨places, inside⟩ := bitsBelow_range member
  rw [places, ok_bind, shiftRight_eq _ inside]
  rfl

theorem mailbox?_eq (offset : Word) :
    mailbox? offset =
      .ok ((Htif.mailbox? offset).map fun found => (found.1, BitVec.ofNat 32 found.2)) := by
  have start : (0x40 : Word).toNat = 0x40 := rfl
  unfold mailbox? Htif.mailbox? Htif.fromhostOffset
  dsimp only
  split
  · rw [Option.map_some, BitVec.ofNat_toNat, BitVec.setWidth_eq]
    rfl
  · split
    · rename_i inside
      have distance : offset - 0x40 = BitVec.ofNat 32 (offset.toNat - 0x40) := by bv_omega
      rw [sub_eq (start.symm ▸ inside.1), distance]
      rfl
    · rfl

theorem mailbox?_lt {offset : Word} {box : Htif.Mailbox} {byte : Nat}
    (found : Htif.mailbox? offset = some (box, byte)) : byte < 8 := by
  unfold Htif.mailbox? Htif.fromhostOffset at found
  dsimp only at found
  split at found
  · cases found
    assumption
  · split at found
    · cases found
      omega
    · cases found

theorem readHtif_eq (htif : Htif) (offset : Word) (width : Width) :
    readHtif htif offset width = .ok (htif.read offset width) := by
  unfold readHtif Htif.read
  rw [mailbox?_eq, ok_bind]
  rcases found : Htif.mailbox? offset with _ | ⟨box, byte⟩
  · rfl
  · have small := mailbox?_lt found
    dsimp only [Option.map_some]
    rw [bitsBelow_eq small, ok_bind, shiftRight_eq _ (by omega)]
    rfl

theorem writeHtif_eq (htif : Htif) (offset value : Word) (width : Width) :
    writeHtif htif offset value width = .ok (htif.write offset value width) := by
  unfold writeHtif Htif.write
  rw [mailbox?_eq, ok_bind]
  rcases found : Htif.mailbox? offset with _ | ⟨box, byte⟩
  · rfl
  · have small := mailbox?_lt found
    dsimp only [Option.map_some]
    rw [bitsBelow_eq small, ok_bind, shiftLeft_eq _ (by omega), ok_bind, ok_bind,
      shiftLeft_eq _ (by omega)]
    rfl

theorem readDevice_eq (device : Device) (offset : Word) (width : Width) :
    readDevice device offset width = .ok (device.read offset width) := by
  cases device with
  | ram memory =>
      rw [readDevice, readRam_eq]
      rfl
  | htif boxes =>
      rw [readDevice, readHtif_eq]
      rfl
  | peripheral other => rfl

theorem writeDevice_eq (device : Device) (offset value : Word) (width : Width) :
    writeDevice device offset value width = .ok (device.write offset value width) := by
  cases device with
  | ram memory =>
      rw [writeDevice, writeRam_eq]
      rfl
  | htif boxes =>
      rw [writeDevice, writeHtif_eq]
      rfl
  | peripheral other => rfl

/-! ## The bus -/

/-- The region that `address` lies in. The device that the map names is looked up by its number. -/
def findRegion (bus : Bus) (address : Word) : Checked (Option Region) := do
  match bus.ranges.entries.findIdx? fun entry => entry.1.contains address with
  | some position =>
    let (range, number) ← item bus.ranges.entries position
    let device ← item bus.devices.toList number
    return some ⟨number, range, device.kind⟩
  | none => return none

/-- Read from the device of a region. -/
def readBus (bus : Bus) (region : Region) (offset : Word) (width : Width) :
    Checked (Word × Bus) := do
  match bus.device? region.device with
  | some device =>
    let (value, after) ← readDevice device offset width
    let bus := { bus with devices := bus.devices.setIfInBounds region.device after }
    return (value, bus.record device.kind ⟨region.device, .read, offset, width, value⟩)
  | none => return (0, bus)

/-- Write the low bytes of `value` to the device of a region. -/
def writeBus (bus : Bus) (region : Region) (offset value : Word) (width : Width) : Checked Bus := do
  match bus.device? region.device with
  | some device =>
    let after ← writeDevice device offset value width
    return (bus.modifyDevice region.device fun _ => after).record device.kind
      ⟨region.device, .write, offset, width, value⟩
  | none => return bus

/-- Read from a physical address. -/
def loadBus (bus : Bus) (address : Word) (width : Width) : Checked (Word × Bus) := do
  match ← findRegion bus address with
  | some region => readBus bus region (← offsetOf region.range address) width
  | none => return (0, bus)

/-- Write to a place in a region, noting the change if it is main memory. -/
def writeNoted (bus : Bus) (region : Region) (offset value : Word) (width : Width) :
    Checked Bus := do
  let bus ← writeBus bus region offset value width
  return if region.isMemory then bus.markDirty region offset else bus

/-- Write to a physical address. -/
def storeBus (bus : Bus) (address value : Word) (width : Width) : Checked Bus := do
  match ← findRegion bus address with
  | some region => writeNoted bus region (← offsetOf region.range address) value width
  | none => return bus

/-- A device that the address map names exists, so it is found. -/
theorem findRegion_eq {bus : Bus} (sound : bus.Sound) (address : Word) :
    findRegion bus address = .ok (bus.findRegion address) := by
  unfold findRegion
  cases found : bus.ranges.entries.findIdx? fun entry => entry.1.contains address with
  | none =>
      have absent : bus.findRegion address = none := by
        refine Option.eq_none_iff_forall_ne_some.2 fun region isRegion => ?_
        obtain ⟨⟨member, -⟩, contains⟩ := Bus.findRegion_eq_some_iff.1 isRegion
        exact absurd contains (Bool.eq_false_iff.1 (List.findIdx?_eq_none_iff.1 found _ member))
      rw [absent]
      rfl
  | some position =>
      obtain ⟨inside, contains, -⟩ := List.findIdx?_eq_some_iff_getElem.1 found
      have member : bus.ranges.entries[position] ∈ bus.ranges.entries := List.getElem_mem inside
      obtain ⟨device, isDevice⟩ := Option.isSome_iff_exists.1 (sound.attached _ member)
      have isEntry : item bus.ranges.entries position = .ok bus.ranges.entries[position] :=
        item_eq (List.getElem?_eq_getElem inside)
      have isItem : item bus.devices.toList bus.ranges.entries[position].2 = .ok device :=
        item_eq (Array.getElem?_toList.trans isDevice)
      have region : bus.findRegion address = some
          ⟨bus.ranges.entries[position].2, bus.ranges.entries[position].1, device.kind⟩ :=
        Bus.findRegion_eq_some_iff.2
          ⟨⟨member, congrArg (Option.map Device.kind) isDevice⟩, contains⟩
      dsimp only
      rw [isEntry, ok_bind, isItem, region]
      rfl

theorem readBus_eq (bus : Bus) (region : Region) (offset : Word) (width : Width) :
    readBus bus region offset width = .ok (bus.read region offset width) := by
  unfold readBus Bus.read
  cases bus.device? region.device with
  | none => rfl
  | some device =>
      dsimp only
      rw [readDevice_eq]
      rfl

theorem writeBus_eq (bus : Bus) (region : Region) (offset value : Word) (width : Width) :
    writeBus bus region offset value width = .ok (bus.write region offset value width) := by
  unfold writeBus Bus.write
  cases isDevice : bus.device? region.device with
  | none => rfl
  | some device =>
      have changed : (bus.modifyDevice region.device fun _ => device.write offset value width) =
          bus.modifyDevice region.device fun device => device.write offset value width := by
        refine congrArg (fun devices => { bus with devices := devices }) (Array.ext_getElem? ?_)
        intro number
        rw [Array.getElem?_modify, Array.getElem?_modify]
        split
        · rename_i same
          subst same
          rw [show bus.devices[region.device]? = some device from isDevice]
          rfl
        · rfl
      dsimp only [Option.map_some]
      rw [writeDevice_eq, ok_bind, changed]
      rfl

theorem loadBus_eq {bus : Bus} (sound : bus.Sound) (address : Word) (width : Width) :
    loadBus bus address width = .ok (bus.load address width) := by
  unfold loadBus Bus.load
  rw [findRegion_eq sound, ok_bind]
  cases found : bus.findRegion address with
  | none => rfl
  | some region =>
      have inside := (Bus.findRegion_eq_some_iff.1 found).2
      dsimp only
      rw [offsetOf_eq inside, ok_bind, readBus_eq]

theorem writeNoted_eq (bus : Bus) (region : Region) (offset value : Word) (width : Width) :
    writeNoted bus region offset value width =
      .ok (if region.isMemory then (bus.write region offset value width).markDirty region offset
        else bus.write region offset value width) := by
  rw [writeNoted, writeBus_eq]
  rfl

theorem storeBus_eq {bus : Bus} (sound : bus.Sound) (address value : Word) (width : Width) :
    storeBus bus address value width = .ok (bus.store address value width) := by
  unfold storeBus Bus.store
  rw [findRegion_eq sound, ok_bind]
  cases found : bus.findRegion address with
  | none => rfl
  | some region =>
      have inside := (Bus.findRegion_eq_some_iff.1 found).2
      dsimp only
      rw [offsetOf_eq inside, ok_bind, writeNoted_eq]

/-! ## The caches -/

/-- The place of an address in a table. -/
def slot (address : Word) : Nat := (address >>> 12 &&& 0xFF).toNat

/-- The cached physical address of a virtual one, and the region it lies in. -/
def lookup (tlb : Tlb) (address : Word) (kind : AccessKind) :
    Checked (Option (Word × Region)) := do
  match ← item (tlb.table kind).toList (slot address) with
  | some entry =>
    let physical := pageAddress entry.physicalPage (pageOffset address)
    if entry.virtualPage = pageOf address ∧ entry.region.range.contains physical = true then
      return some (physical, entry.region)
    else return none
  | none => return none

/-- Keep a translation, if it leads to main memory. -/
def insert (tlb : Tlb) (address physical : Word) (region : Region) (kind : AccessKind) :
    Checked Tlb := do
  if region.isMemory then within (tlb.table kind).toList.length (slot address)
  return tlb.insert address physical region kind

theorem slot_eq (address : Word) : slot address = (TlbTable.index (pageOf address)).val := by
  rw [slot, @toNat_and_mask 32 _ 0xFF 8 rfl]
  change (address >>> 12).toNat % 2 ^ 8 = ((address.extractLsb' 12 20).setWidth 8).toNat
  rw [BitVec.toNat_setWidth, BitVec.extractLsb'_toNat, BitVec.toNat_ushiftRight]
  omega

theorem lookup_eq (tlb : Tlb) (address : Word) (kind : AccessKind) :
    lookup tlb address kind = .ok (tlb.lookup address kind) := by
  have isItem : item (tlb.table kind).toList (slot address) =
      .ok ((tlb.table kind).get (pageOf address)) := by
    rw [slot_eq]
    refine item_eq ?_
    rw [List.getElem?_eq_getElem (by simp)]
    exact congrArg some (Vector.getElem_toList _)
  unfold lookup Tlb.lookup
  rw [isItem, ok_bind]
  cases (tlb.table kind).get (pageOf address) with
  | none => rfl
  | some entry =>
      dsimp only
      split <;> rfl

theorem insert_eq (tlb : Tlb) (address physical : Word) (region : Region) (kind : AccessKind) :
    insert tlb address physical region kind = .ok (tlb.insert address physical region kind) := by
  have inside : within (tlb.table kind).toList.length (slot address) = .ok () := by
    refine within_eq ?_
    rw [slot_eq, Vector.length_toList]
    exact (TlbTable.index (pageOf address)).isLt
  unfold insert
  rw [inside]
  split <;> rfl

end Rv32.Checked
