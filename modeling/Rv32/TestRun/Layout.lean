import Rv32.Bus

/-!
# The address space of a test

A test runs with 32 MiB of main memory and the mailboxes through which it reports. Each test places
the mailboxes where it likes. If they start inside main memory, they take the place of the bytes
there, and memory goes on behind them.

`TestLayout.bus` attaches the devices, and `TestLayout.readTohost` reads the mailbox `tohost`.
-/

namespace Rv32

/-- Why the devices of a test cannot be attached. -/
inductive LayoutError where
  | tohostTooHigh
  | invalidBounds (error : InvalidBounds)
  | overlappingRange (error : OverlappingRange)
deriving DecidableEq, Repr

namespace LayoutError

def message : LayoutError → String
  | tohostTooHigh => "bad tohost"
  | invalidBounds error => error.message
  | overlappingRange error => error.message

end LayoutError

namespace TestLayout

/-- The first address of main memory. -/
def memoryStart : Word := 0x80000000

/-- The first address behind main memory. -/
def memoryStop : Word := 0x82000000

/-- Attach a device to the `length` addresses from `start` on. -/
def attach (bus : Bus) (start length : Word) (device : Device) : Except LayoutError Bus :=
  match AddressRange.ofLength start length with
  | .error error => .error (.invalidBounds error)
  | .ok range =>
    match bus.attach range device with
    | .error error => .error (.overlappingRange error)
    | .ok (_, bus) => .ok bus

/-- Attach memory from `start` to just before `stop`, if that is any. -/
def attachMemory (bus : Bus) (start stop : Word) : Except LayoutError Bus :=
  if start < stop then
    attach bus start (stop - start) (.ram (.zeros (stop - start).toNat))
  else .ok bus

/-- Memory and mailboxes, which must end below the last address of all. -/
def bus (tohost : Word) : Except LayoutError Bus := do
  if 0x100000000 ≤ tohost.toNat + Htif.length.toNat then throw .tohostTooHigh
  let mailboxStop := tohost + Htif.length
  let memory ←
    if memoryStart ≤ tohost ∧ tohost < memoryStop then do
      let below ← attachMemory .empty memoryStart tohost
      attachMemory below (if mailboxStop ≤ memoryStop then mailboxStop else memoryStop) memoryStop
    else attachMemory .empty memoryStart memoryStop
  attach memory tohost Htif.length (.htif .empty)

/-- The contents of the mailbox `tohost`, read as two words. -/
def readTohost (bus : Bus) (tohost : Word) : DoubleWord × Bus :=
  let (low, bus) := bus.load tohost .word
  let (high, bus) := bus.load (tohost + 4) .word
  (high ++ low, bus)

end TestLayout

end Rv32
