import Rv32.Device.Ram
import Rv32.Device.Htif
import Rv32.Device.Peripheral

/-!
# Devices

What can be attached to the bus: main memory, whose accesses have no other effect than to read or
write its bytes, and devices of memory-mapped input and output, which must see every access exactly
once. Of these the mailboxes of a test are known, and any other is a `Peripheral`. Offsets count from
the start of the range that a device is attached at.
-/

namespace Rv32

/-- Main memory may be cached and executed from; of the other kind every access counts. -/
inductive DeviceKind where
  | memory
  | io
deriving DecidableEq, Repr

/-- A device on the bus. -/
inductive Device where
  | ram (ram : Ram)
  | htif (htif : Htif)
  | peripheral (peripheral : Peripheral)

namespace Device

def kind : Device → DeviceKind
  | ram _ => .memory
  | htif _ => .io
  | peripheral _ => .io

/-- The answer to a read, and the device after it. -/
def read (device : Device) (offset : Word) (width : Width) : Word × Device :=
  match device with
  | ram memory => (memory.read offset width, device)
  | htif boxes => (boxes.read offset width, device)
  | peripheral other =>
    let (value, after) := other.read offset width
    (value, peripheral after)

/-- The device after a write of the low bytes of `value`. -/
def write (device : Device) (offset value : Word) (width : Width) : Device :=
  match device with
  | ram memory => ram (memory.write offset value width)
  | htif boxes => htif (boxes.write offset value width)
  | peripheral other => peripheral (other.write offset value width)

/-- Note that the machine changed the memory at `offset`. Only main memory keeps track of that. -/
def markDirty (device : Device) (offset : Word) : Device :=
  match device with
  | ram memory => ram (memory.markDirty offset)
  | htif _ | peripheral _ => device

@[simp]
theorem kind_read (device : Device) (offset : Word) (width : Width) :
    (device.read offset width).2.kind = device.kind := by
  cases device <;> rfl

@[simp]
theorem kind_write (device : Device) (offset value : Word) (width : Width) :
    (device.write offset value width).kind = device.kind := by
  cases device <;> rfl

@[simp]
theorem kind_markDirty (device : Device) (offset : Word) :
    (device.markDirty offset).kind = device.kind := by
  cases device <;> rfl

end Device

end Rv32
