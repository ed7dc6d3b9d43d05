import Rv32.Proofs.MemoryBytes
import Rv32.Proofs.RangeMaps

/-!
# Attaching devices

A device can be attached at a range if nothing is found there yet (`Bus.Sound.exists_attach_iff`).
Then the addresses of the range lead to it, and all others lead where they led before
(`Bus.Sound.findRegion_attach`).
-/

namespace Rv32

/-- Whether an address lies at `start` or above and below `stop`. -/
def Word.Between (start stop : Nat) (address : Word) : Prop :=
  start ≤ address.toNat ∧ address.toNat < stop

instance (start stop : Nat) (address : Word) : Decidable (address.Between start stop) :=
  inferInstanceAs (Decidable (_ ∧ _))

namespace AddressRange

variable {first length address : Word} {range : AddressRange}

theorem contains_iff_between : range.contains address = true ↔
    address.Between range.first.toNat (range.first.toNat + range.size) := by
  have ordered := BitVec.le_def.1 range.first_le_last
  unfold Word.Between
  rw [contains_iff, BitVec.le_def, BitVec.le_def, range.size_eq]
  omega

theorem exists_ofLength (positive : 0 < length.toNat)
    (fits : first.toNat + length.toNat ≤ 0x100000000) :
    ∃ range, ofLength first length = .ok range :=
  ⟨_, dif_pos ⟨positive, fits⟩⟩

theorem ofLength_eq_ok (made : ofLength first length = .ok range) :
    range.first = first ∧ range.size = length.toNat := by
  unfold ofLength at made
  split at made
  · rename_i fits
    cases made
    have one : (1 : Word).toNat = 1 := rfl
    have below := length.isLt
    have last : (first + (length - 1)).toNat = first.toNat + length.toNat - 1 := by
      rw [BitVec.toNat_add, BitVec.toNat_sub, one]
      omega
    refine ⟨rfl, ?_⟩
    rw [size_eq]
    dsimp only
    omega
  · cases made

end AddressRange

namespace Bus

variable {bus after : Bus} {range : AddressRange} {device old : Device} {number other : Nat}
  {region : Region} {address : Word}

/-- Nothing is found exactly where nothing is mapped. -/
theorem Sound.findRegion_eq_none_iff (sound : bus.Sound) :
    bus.findRegion address = none ↔
      ∀ entry ∈ bus.ranges.entries, entry.1.contains address = false := by
  constructor
  · intro nowhere entry member
    refine Bool.eq_false_iff.2 fun contains => ?_
    obtain ⟨device, isDevice⟩ := Option.isSome_iff_exists.1 (sound.attached entry member)
    have has : bus.HasRegion ⟨entry.2, entry.1, device.kind⟩ :=
      ⟨member, congrArg (Option.map Device.kind) isDevice⟩
    rw [findRegion_eq_some_iff.2 ⟨has, contains⟩] at nowhere
    cases nowhere
  · intro vacant
    rcases found : bus.findRegion address with _ | region
    · rfl
    · obtain ⟨⟨member, -⟩, contains⟩ := findRegion_eq_some_iff.1 found
      rw [vacant _ member] at contains
      cases contains

/-- A device can be attached at a range exactly if nothing is found there. -/
theorem Sound.exists_attach_iff (sound : bus.Sound) :
    (∃ number after, bus.attach range device = .ok (number, after)) ↔
      ∀ address, range.contains address = true → bus.findRegion address = none := by
  rcases inserted : bus.ranges.insert range bus.devices.size with refusal | ranges
  · obtain ⟨-, entry, member, address, inRange, inEntry⟩ :=
      AddressMap.insert_eq_error_iff.1 inserted
    refine iff_of_false ?_ fun free => ?_
    · rintro ⟨number, after, attached⟩
      unfold Bus.attach at attached
      rw [inserted] at attached
      cases attached
    · have vacant := sound.findRegion_eq_none_iff.1 (free address inRange) entry member
      rw [inEntry] at vacant
      cases vacant
  · refine iff_of_true ?_ fun address inRange => sound.findRegion_eq_none_iff.2 ?_
    · unfold Bus.attach
      rw [inserted]
      exact ⟨_, _, rfl⟩
    · intro entry member
      refine Bool.eq_false_iff.2 fun contains => ?_
      have meets : range.Meets entry.1 := ⟨address, inRange, contains⟩
      have refused : bus.ranges.insert range bus.devices.size = .error ⟨range⟩ :=
        AddressMap.insert_eq_error_iff.2 ⟨rfl, entry, member, meets⟩
      rw [inserted] at refused
      cases refused

section Attached

variable (attached : bus.attach range device = .ok (number, after))

include attached

theorem number_of_attach : number = bus.devices.size := by
  unfold attach at attached
  split at attached
  · cases attached
    rfl
  · cases attached

theorem mem_attach {entry : AddressRange × Nat} :
    entry ∈ after.ranges.entries ↔ entry = (range, number) ∨ entry ∈ bus.ranges.entries := by
  rw [number_of_attach attached]
  exact (attach_eq_ok attached).1 entry

theorem device?_attached : after.device? number = some device := by
  obtain ⟨-, devices, -⟩ := attach_eq_ok attached
  unfold device?
  rw [number_of_attach attached, devices, Array.getElem?_push_size]

theorem device?_attach (isDevice : bus.device? other = some old) :
    after.device? other = some old := by
  obtain ⟨-, devices, -⟩ := attach_eq_ok attached
  exact (device?_push devices (lt_size_of_device? isDevice)).trans isDevice

/-- No address led to the number of the new device. -/
theorem device_ne_of_attach (found : bus.findRegion address = some region) :
    region.device ≠ number := by
  obtain ⟨device, isDevice, -⟩ := Option.map_eq_some_iff.1 (findRegion_eq_some_iff.1 found).1.2
  rw [number_of_attach attached]
  exact Nat.ne_of_lt (lt_size_of_device? isDevice)

variable (sound : bus.Sound)

include sound

/-- A device that is attached takes the addresses of its range and no others. -/
theorem Sound.findRegion_attach (address : Word) :
    after.findRegion address =
      if range.contains address = true then some ⟨number, range, device.kind⟩
      else bus.findRegion address := by
  split
  · rename_i inRange
    have isDevice := congrArg (Option.map Device.kind) (device?_attached attached)
    have has : after.HasRegion ⟨number, range, device.kind⟩ :=
      ⟨(mem_attach attached).2 (.inl rfl), isDevice⟩
    exact findRegion_eq_some_iff.2 ⟨has, inRange⟩
  · rename_i outside
    rcases found : bus.findRegion address with _ | region
    · refine (sound.attach attached).findRegion_eq_none_iff.2 fun entry member => ?_
      rcases (mem_attach attached).1 member with rfl | isOld
      · exact Bool.eq_false_iff.2 outside
      · exact sound.findRegion_eq_none_iff.1 found entry isOld
    · obtain ⟨has, contains⟩ := findRegion_eq_some_iff.1 found
      exact findRegion_eq_some_iff.2 ⟨has.attach attached, contains⟩

theorem Sound.eq_of_findRegion_attach (found : after.findRegion address = some region)
    (here : region.device = number) :
    range.contains address = true ∧ region = ⟨number, range, device.kind⟩ := by
  rw [sound.findRegion_attach attached] at found
  split at found
  · rename_i inRange
    exact ⟨inRange, (Option.some.inj found).symm⟩
  · exact absurd here (device_ne_of_attach attached found)

theorem Sound.exists_attached_iff :
    (∃ region, after.findRegion address = some region ∧ region.device = number) ↔
      range.contains address = true := by
  constructor
  · rintro ⟨region, found, here⟩
    exact (sound.eq_of_findRegion_attach attached found here).1
  · intro inRange
    exact ⟨_, (sound.findRegion_attach attached address).trans (if_pos inRange), rfl⟩

theorem Sound.findRegion_attach_eq_none_iff :
    after.findRegion address = none ↔
      bus.findRegion address = none ∧ ¬ range.contains address = true := by
  rw [sound.findRegion_attach attached]
  split
  · rename_i inRange
    exact iff_of_false nofun fun both => both.2 inRange
  · rename_i outside
    exact (and_iff_left outside).symm

/-- A device of input and output takes its addresses from memory. -/
theorem Sound.inMemory_attach_iff (io : device.kind = .io) :
    after.InMemory address ↔ bus.InMemory address ∧ ¬ range.contains address = true := by
  unfold InMemory
  rw [sound.findRegion_attach attached]
  split
  · rename_i inRange
    refine iff_of_false ?_ fun both => both.2 inRange
    rintro ⟨region, same, isMemory⟩
    cases same
    rw [Region.isMemory, io] at isMemory
    cases isMemory
  · rename_i outside
    exact (and_iff_left outside).symm

end Attached

end Bus

end Rv32
