import Rv32.Address.Map
import Rv32.Device

/-!
# The bus

The bus routes physical addresses to the devices attached to it. An access belongs to the device
that is attached where its first byte lies; where nothing is attached, reads give zero and writes
are lost.

Accesses never fail. The bus keeps a ledger of those that reached devices of input and output, the
latest first, because their number and order is part of what a machine does.
-/

namespace Rv32

/-- Where in the address space a device is attached. -/
structure Region where
  device : Nat
  range : AddressRange
  kind : DeviceKind
deriving DecidableEq, Repr

namespace Region

/-- Whether the region is main memory. -/
def isMemory (region : Region) : Bool := region.kind = .memory

end Region

/-- Whether an access takes a value from the device or gives one to it. -/
inductive Direction where
  | read
  | write
deriving DecidableEq, Repr

/-- One access that reached a device of input and output, with the value read or written. -/
structure DeviceAccess where
  device : Nat
  direction : Direction
  offset : Word
  width : Width
  value : Word
deriving DecidableEq, Repr

/-- Devices, the ranges they are attached at, and the ledger of accesses. -/
structure Bus where
  ranges : AddressMap Nat
  devices : Array Device
  accesses : List DeviceAccess

namespace Bus

/-- A bus without devices. -/
def empty : Bus := ⟨AddressMap.empty, #[], []⟩

/-- Attach a device, which gets the next free number. -/
def attach (bus : Bus) (range : AddressRange) (device : Device) :
    Except OverlappingRange (Nat × Bus) :=
  match bus.ranges.insert range bus.devices.size with
  | .ok ranges =>
    .ok (bus.devices.size, { bus with ranges := ranges, devices := bus.devices.push device })
  | .error error => .error error

/-- The device with this number. -/
def device? (bus : Bus) (number : Nat) : Option Device := bus.devices[number]?

/-- The bus with the device of this number changed. -/
def modifyDevice (bus : Bus) (number : Nat) (change : Device → Device) : Bus :=
  { bus with devices := bus.devices.modify number change }

/-- The region that `address` lies in. -/
def findRegion (bus : Bus) (address : Word) : Option Region :=
  match bus.ranges.entry? address with
  | some (range, number) => (bus.device? number).map fun device => ⟨number, range, device.kind⟩
  | none => none

/-- Enter an access into the ledger if the device is not main memory. -/
def record (bus : Bus) (kind : DeviceKind) (access : DeviceAccess) : Bus :=
  match kind with
  | .memory => bus
  | .io => { bus with accesses := access :: bus.accesses }

/-- Read from the device of a region. -/
def read (bus : Bus) (region : Region) (offset : Word) (width : Width) : Word × Bus :=
  match bus.device? region.device with
  | some device =>
    let (value, after) := device.read offset width
    let bus := { bus with devices := bus.devices.setIfInBounds region.device after }
    (value, bus.record device.kind ⟨region.device, .read, offset, width, value⟩)
  | none => (0, bus)

/-- Write the low bytes of `value` to the device of a region. -/
def write (bus : Bus) (region : Region) (offset value : Word) (width : Width) : Bus :=
  match (bus.device? region.device).map Device.kind with
  | some kind =>
    (bus.modifyDevice region.device fun device => device.write offset value width).record kind
      ⟨region.device, .write, offset, width, value⟩
  | none => bus

/-- Note that the machine changed the memory of a region at `offset`. -/
def markDirty (bus : Bus) (region : Region) (offset : Word) : Bus :=
  bus.modifyDevice region.device fun device => device.markDirty offset

/-- Read from a physical address. -/
def load (bus : Bus) (address : Word) (width : Width) : Word × Bus :=
  match bus.findRegion address with
  | some region => bus.read region (region.range.offsetOf address) width
  | none => (0, bus)

/-- Write to a physical address, noting the change if it is main memory. -/
def store (bus : Bus) (address value : Word) (width : Width) : Bus :=
  match bus.findRegion address with
  | some region =>
    let offset := region.range.offsetOf address
    let bus := bus.write region offset value width
    if region.isMemory then bus.markDirty region offset else bus
  | none => bus

/-- Store bytes one after the other from `address` on, wrapping at the end of the address space. -/
def writeBytes (bus : Bus) (address : Word) : List Byte → Bus
  | [] => bus
  | byte :: rest =>
    (bus.store address (byte.setWidth 32) .byte).writeBytes (address + 1) rest

/-- Load `count` bytes one after the other from `address` on. -/
def readBytes (bus : Bus) (address : Word) : Nat → List Byte × Bus
  | 0 => ([], bus)
  | count + 1 =>
    let (value, bus) := bus.load address .byte
    let (rest, bus) := bus.readBytes (address + 1) count
    (value.setWidth 8 :: rest, bus)

/-- Load `count` words one after the other from `address` on. -/
def readWords (bus : Bus) (address : Word) : Nat → List Word × Bus
  | 0 => ([], bus)
  | count + 1 =>
    let (value, bus) := bus.load address .word
    let (rest, bus) := bus.readWords (address + 4) count
    (value :: rest, bus)

/-- Drop the ledger, which no access depends on. -/
def forgetAccesses (bus : Bus) : Bus := { bus with accesses := [] }

/-! ## Accesses keep the map of the address space -/

theorem map_device?_modifyDevice {α : Type} (bus : Bus) (number other : Nat) (view : Device → α)
    {change : Device → Device} (keeps : ∀ device, view (change device) = view device) :
    ((bus.modifyDevice number change).device? other).map view = (bus.device? other).map view := by
  simp only [device?, modifyDevice, Array.getElem?_modify]
  split
  · cases bus.devices[other]? with
    | none => rfl
    | some device => exact congrArg some (keeps device)
  · rfl

theorem kind_device?_modifyDevice (bus : Bus) (number other : Nat) {change : Device → Device}
    (keeps : ∀ device, (change device).kind = device.kind) :
    ((bus.modifyDevice number change).device? other).map Device.kind =
      (bus.device? other).map Device.kind :=
  bus.map_device?_modifyDevice number other Device.kind keeps

theorem map_device?_replace {α : Type} (bus : Bus) {number : Nat} {device after : Device}
    (found : bus.device? number = some device) (other : Nat) (view : Device → α)
    (keeps : view after = view device) :
    (Bus.device? { bus with devices := bus.devices.setIfInBounds number after } other).map view =
      (bus.device? other).map view := by
  simp only [device?] at found ⊢
  rw [Array.getElem?_setIfInBounds]
  split
  · rename_i same
    subst same
    obtain ⟨inside, _⟩ := Array.getElem?_eq_some_iff.1 found
    rw [if_pos inside, found]
    exact congrArg some keeps
  · rfl

/-- Regions depend only on the ranges and on the kinds of the devices. -/
theorem findRegion_congr {bus other : Bus} (ranges : other.ranges = bus.ranges)
    (kinds : ∀ number,
      (other.device? number).map Device.kind = (bus.device? number).map Device.kind)
    (address : Word) : other.findRegion address = bus.findRegion address := by
  unfold findRegion
  rw [ranges]
  split
  · rename_i range number _
    have same := congrArg (Option.map fun kind => (⟨number, range, kind⟩ : Region)) (kinds number)
    simpa only [Option.map_map, Function.comp_def] using same
  · rfl

@[simp]
theorem findRegion_modifyDevice (bus : Bus) (number : Nat) {change : Device → Device}
    (keeps : ∀ device, (change device).kind = device.kind) (address : Word) :
    (bus.modifyDevice number change).findRegion address = bus.findRegion address := by
  have ranges : (bus.modifyDevice number change).ranges = bus.ranges := rfl
  exact findRegion_congr ranges
    (fun other => bus.kind_device?_modifyDevice number other keeps) address

@[simp]
theorem findRegion_record (bus : Bus) (kind : DeviceKind) (access : DeviceAccess)
    (address : Word) : (bus.record kind access).findRegion address = bus.findRegion address := by
  cases kind <;> rfl

/-- A device may be replaced by one of its own kind. -/
theorem findRegion_replace (bus : Bus) (number : Nat) {device after : Device} (address : Word)
    (found : bus.device? number = some device) (keeps : after.kind = device.kind) :
    Bus.findRegion { bus with devices := bus.devices.setIfInBounds number after } address =
      bus.findRegion address := by
  have ranges : Bus.ranges { bus with devices := bus.devices.setIfInBounds number after } =
      bus.ranges := rfl
  exact findRegion_congr ranges
    (fun other => bus.map_device?_replace found other Device.kind keeps) address

@[simp]
theorem findRegion_read (bus : Bus) (region : Region) (offset : Word) (width : Width)
    (address : Word) :
    (bus.read region offset width).2.findRegion address = bus.findRegion address := by
  unfold read
  split
  · rename_i device found
    rw [findRegion_record]
    exact bus.findRegion_replace region.device address found (device.kind_read offset width)
  · rfl

@[simp]
theorem findRegion_write (bus : Bus) (region : Region) (offset value : Word) (width : Width)
    (address : Word) :
    (bus.write region offset value width).findRegion address = bus.findRegion address := by
  unfold write
  split
  · rw [findRegion_record]
    exact bus.findRegion_modifyDevice _ (fun device => device.kind_write offset value width) address
  · rfl

@[simp]
theorem findRegion_markDirty (bus : Bus) (region : Region) (offset address : Word) :
    (bus.markDirty region offset).findRegion address = bus.findRegion address :=
  bus.findRegion_modifyDevice _ (fun device => device.kind_markDirty offset) address

@[simp]
theorem findRegion_load (bus : Bus) (place : Word) (width : Width) (address : Word) :
    (bus.load place width).2.findRegion address = bus.findRegion address := by
  unfold load
  split
  · exact bus.findRegion_read ..
  · rfl

@[simp]
theorem findRegion_store (bus : Bus) (place value : Word) (width : Width) (address : Word) :
    (bus.store place value width).findRegion address = bus.findRegion address := by
  unfold store
  split
  · split
    · rw [findRegion_markDirty, findRegion_write]
    · rw [findRegion_write]
  · rfl

end Bus

end Rv32
