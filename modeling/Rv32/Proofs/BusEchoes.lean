import Rv32.Bus

/-!
# Buses that answer alike

Two buses have the same contents (`Bus.SameContents`) if the same devices are attached at the same
places. They may have been used differently before, so their ledgers need not agree. `Bus.Echoes`
adds that both were used in the same way since some point, at which their ledgers were as given.

Every access gets the same answer from both, and they go on to echo each other.
-/

namespace Rv32.Bus

/-- The same devices in the same state are attached to both buses, in the same places. -/
structure SameContents (first second : Bus) : Prop where
  ranges : second.ranges = first.ranges
  devices : second.devices = first.devices

/-- The buses have the same contents, and the same accesses were made to both since their ledgers
were `left` and `right`. -/
structure Echoes (left right : List DeviceAccess) (first second : Bus) : Prop
    extends SameContents first second where
  accesses : ∃ made, first.accesses = made ++ left ∧ second.accesses = made ++ right

/-- Buses with the same contents echo each other from now on. -/
theorem SameContents.echoes {first second : Bus} (same : first.SameContents second) :
    Echoes first.accesses second.accesses first second :=
  ⟨same, [], rfl, rfl⟩

namespace Echoes

variable {left right : List DeviceAccess} {first second : Bus}
  (echoes : Echoes left right first second)

include echoes

theorem device? (number : Nat) : second.device? number = first.device? number :=
  congrArg (fun devices : Array Device => devices[number]?) echoes.devices

theorem findRegion (address : Word) : second.findRegion address = first.findRegion address :=
  findRegion_congr echoes.ranges (fun number => by rw [echoes.device? number]) address

/-- The same change of the devices. -/
theorem change (f : Array Device → Array Device) :
    Echoes left right { first with devices := f first.devices }
      { second with devices := f second.devices } :=
  ⟨⟨echoes.ranges, congrArg f echoes.devices⟩, echoes.accesses⟩

theorem record (kind : DeviceKind) (access : DeviceAccess) :
    Echoes left right (first.record kind access) (second.record kind access) := by
  cases kind with
  | memory => exact echoes
  | io =>
      obtain ⟨made, here, there⟩ := echoes.accesses
      exact ⟨⟨echoes.ranges, echoes.devices⟩, access :: made, congrArg (access :: ·) here,
        congrArg (access :: ·) there⟩

theorem read (region : Region) (offset : Word) (width : Width) :
    (second.read region offset width).1 = (first.read region offset width).1 ∧
      Echoes left right (first.read region offset width).2 (second.read region offset width).2 := by
  unfold Bus.read
  rw [echoes.device?]
  cases first.device? region.device with
  | none => exact ⟨rfl, echoes⟩
  | some device =>
      let after := (device.read offset width).2
      exact ⟨rfl, (echoes.change (·.setIfInBounds region.device after)).record _ _⟩

theorem write (region : Region) (offset value : Word) (width : Width) :
    Echoes left right (first.write region offset value width)
      (second.write region offset value width) := by
  unfold Bus.write
  rw [echoes.device?]
  cases (first.device? region.device).map Device.kind with
  | none => exact echoes
  | some kind => exact (echoes.change (·.modify region.device _)).record _ _

theorem markDirty (region : Region) (offset : Word) :
    Echoes left right (first.markDirty region offset) (second.markDirty region offset) :=
  echoes.change (·.modify region.device _)

theorem load (address : Word) (width : Width) :
    (second.load address width).1 = (first.load address width).1 ∧
      Echoes left right (first.load address width).2 (second.load address width).2 := by
  unfold Bus.load
  rw [echoes.findRegion]
  cases first.findRegion address with
  | none => exact ⟨rfl, echoes⟩
  | some region => exact echoes.read ..

theorem store (address value : Word) (width : Width) :
    Echoes left right (first.store address value width) (second.store address value width) := by
  unfold Bus.store
  rw [echoes.findRegion]
  cases first.findRegion address with
  | none => exact echoes
  | some region =>
      dsimp only
      split
      · exact (echoes.write ..).markDirty ..
      · exact echoes.write ..

theorem writeBytes (address : Word) (bytes : List Byte) :
    Echoes left right (first.writeBytes address bytes) (second.writeBytes address bytes) := by
  induction bytes generalizing first second address with
  | nil => exact echoes
  | cons byte rest ih => exact ih (echoes.store ..) (address + 1)

theorem readBytes (address : Word) (count : Nat) :
    (second.readBytes address count).1 = (first.readBytes address count).1 ∧
      Echoes left right (first.readBytes address count).2 (second.readBytes address count).2 := by
  induction count generalizing first second address with
  | zero => exact ⟨rfl, echoes⟩
  | succ count ih =>
      obtain ⟨value, loaded⟩ := echoes.load address .byte
      obtain ⟨rest, after⟩ := ih loaded (address + 1)
      unfold Bus.readBytes
      dsimp only
      rw [value, rest]
      exact ⟨rfl, after⟩

/-- A device is attached to both under the same number, or refused by both for the same reason. -/
theorem attach (range : AddressRange) (device : Device) :
    (∃ refusal, first.attach range device = .error refusal ∧
      second.attach range device = .error refusal) ∨
    ∃ number bus busToo, first.attach range device = .ok (number, bus) ∧
      second.attach range device = .ok (number, busToo) ∧ Echoes left right bus busToo := by
  unfold Bus.attach
  rw [echoes.ranges, echoes.devices]
  cases first.ranges.insert range first.devices.size with
  | error refusal => exact .inl ⟨refusal, rfl, rfl⟩
  | ok ranges =>
      refine .inr ⟨_, _, _, rfl, rfl, ⟨rfl, rfl⟩, echoes.accesses⟩

end Echoes

end Rv32.Bus
