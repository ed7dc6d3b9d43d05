import Rv32.Bus
import Rv32.Proofs.AddressMap

/-!
# Regions of a bus

A bus has a region for every device that is attached, and an address lies in the region that
contains it. No access changes where devices are attached (`Bus.SameMap`).

A bus is sound if no device is attached twice. Every bus that is built by attaching devices is.
-/

namespace Rv32

/-! ## Regions -/

namespace Bus

variable {bus : Bus} {address : Word} {region : Region} {ram : Ram}

/-- The bus has this region. -/
def HasRegion (bus : Bus) (region : Region) : Prop :=
  (region.range, region.device) ∈ bus.ranges.entries ∧
    (bus.device? region.device).map Device.kind = some region.kind

theorem findRegion_eq_some_iff :
    bus.findRegion address = some region ↔
      bus.HasRegion region ∧ region.range.contains address = true := by
  unfold findRegion
  constructor
  · intro found
    split at found
    · rename_i range number entry
      obtain ⟨member, contains⟩ := AddressMap.entry?_eq_some_iff.1 entry
      obtain ⟨device, isDevice, rfl⟩ := Option.map_eq_some_iff.1 found
      refine ⟨⟨member, ?_⟩, contains⟩
      rw [isDevice]
      rfl
    · cases found
  · rintro ⟨⟨member, kind⟩, contains⟩
    obtain ⟨device, isDevice, same⟩ := Option.map_eq_some_iff.1 kind
    rw [AddressMap.entry?_eq_some_iff.2 ⟨member, contains⟩]
    dsimp only
    rw [isDevice, Option.map_some, same]

/-- A region of main memory is backed by a memory. -/
theorem HasRegion.backed (has : bus.HasRegion region) (memory : region.isMemory = true) :
    ∃ ram, bus.device? region.device = some (.ram ram) := by
  obtain ⟨device, isDevice, same⟩ := Option.map_eq_some_iff.1 has.2
  rw [of_decide_eq_true memory] at same
  cases device with
  | ram ram => exact ⟨ram, isDevice⟩
  | htif boxes => cases same
  | peripheral other => cases same

theorem HasRegion.isMemory (has : bus.HasRegion region)
    (isRam : bus.device? region.device = some (.ram ram)) : region.isMemory = true := by
  have kind := has.2
  rw [isRam] at kind
  exact decide_eq_true (Option.some.inj kind).symm

/-- Whether an address belongs to main memory. -/
def InMemory (bus : Bus) (address : Word) : Prop :=
  ∃ region, bus.findRegion address = some region ∧ region.isMemory = true

instance (bus : Bus) (address : Word) : Decidable (bus.InMemory address) :=
  decidable_of_iff _ (Option.any_eq_true Region.isMemory (bus.findRegion address))

/-- Every device is attached in one place, and only devices that exist are attached. -/
structure Sound (bus : Bus) : Prop where
  attached : ∀ entry ∈ bus.ranges.entries, (bus.device? entry.2).isSome = true
  distinct : ∀ first ∈ bus.ranges.entries, ∀ second ∈ bus.ranges.entries,
    first.2 = second.2 → first = second

/-! ## Buses with the same map -/

/-- The same kinds of devices are attached in the same places. -/
structure SameMap (before after : Bus) : Prop where
  ranges : after.ranges = before.ranges
  kinds : ∀ number,
    (after.device? number).map Device.kind = (before.device? number).map Device.kind

namespace SameMap

variable {before middle after : Bus}

theorem refl (bus : Bus) : bus.SameMap bus := ⟨rfl, fun _ => rfl⟩

theorem trans (left : before.SameMap middle) (right : middle.SameMap after) :
    before.SameMap after :=
  ⟨right.ranges.trans left.ranges, fun number => (right.kinds number).trans (left.kinds number)⟩

theorem findRegion_eq (same : before.SameMap after) (address : Word) :
    after.findRegion address = before.findRegion address :=
  findRegion_congr same.ranges same.kinds address

theorem hasRegion (same : before.SameMap after) {region : Region} (has : before.HasRegion region) :
    after.HasRegion region :=
  ⟨same.ranges ▸ has.1, (same.kinds _).trans has.2⟩

theorem inMemory (same : before.SameMap after) {address : Word} (inside : before.InMemory address) :
    after.InMemory address := by
  obtain ⟨region, found, memory⟩ := inside
  exact ⟨region, (same.findRegion_eq address).trans found, memory⟩

theorem sound (same : before.SameMap after) (sound : before.Sound) : after.Sound := by
  refine ⟨fun entry member => ?_, ?_⟩
  · rw [same.ranges] at member
    have attached := sound.attached entry member
    rwa [← Option.isSome_map (f := Device.kind), same.kinds, Option.isSome_map]
  · rw [same.ranges]
    exact sound.distinct

end SameMap

theorem sameMap_record (bus : Bus) (kind : DeviceKind) (access : DeviceAccess) :
    bus.SameMap (bus.record kind access) := by
  cases kind with
  | memory => exact .refl bus
  | io => exact ⟨rfl, fun _ => rfl⟩

theorem sameMap_modifyDevice (bus : Bus) (number : Nat) {change : Device → Device}
    (keeps : ∀ device, (change device).kind = device.kind) :
    bus.SameMap (bus.modifyDevice number change) :=
  ⟨rfl, fun other => bus.kind_device?_modifyDevice number other keeps⟩

/-- A device may be replaced by one of its own kind. -/
theorem sameMap_replace (bus : Bus) {number : Nat} {device after : Device}
    (isDevice : bus.device? number = some device) (keeps : after.kind = device.kind) :
    bus.SameMap { bus with devices := bus.devices.setIfInBounds number after } :=
  ⟨rfl, fun other => bus.map_device?_replace isDevice other Device.kind keeps⟩

theorem sameMap_read (bus : Bus) (region : Region) (offset : Word) (width : Width) :
    bus.SameMap (bus.read region offset width).2 := by
  unfold read
  split
  · rename_i device isDevice
    exact .trans (bus.sameMap_replace isDevice (device.kind_read offset width)) (sameMap_record ..)
  · exact .refl bus

theorem sameMap_write (bus : Bus) (region : Region) (offset value : Word) (width : Width) :
    bus.SameMap (bus.write region offset value width) := by
  unfold write
  split
  · refine .trans ?_ (sameMap_record _ _ _)
    exact bus.sameMap_modifyDevice _ fun device => device.kind_write offset value width
  · exact .refl bus

theorem sameMap_markDirty (bus : Bus) (region : Region) (offset : Word) :
    bus.SameMap (bus.markDirty region offset) :=
  bus.sameMap_modifyDevice _ fun device => device.kind_markDirty offset

theorem sameMap_load (bus : Bus) (address : Word) (width : Width) :
    bus.SameMap (bus.load address width).2 := by
  unfold load
  split
  · exact bus.sameMap_read ..
  · exact .refl bus

theorem sameMap_store (bus : Bus) (address value : Word) (width : Width) :
    bus.SameMap (bus.store address value width) := by
  unfold store
  split
  · dsimp only
    split
    · exact .trans (bus.sameMap_write ..) (sameMap_markDirty ..)
    · exact bus.sameMap_write ..
  · exact .refl bus

theorem sameMap_writeBytes (bus : Bus) (address : Word) (bytes : List Byte) :
    bus.SameMap (bus.writeBytes address bytes) := by
  induction bytes generalizing bus address with
  | nil => exact .refl bus
  | cons byte rest ih => exact .trans (bus.sameMap_store ..) (ih _ _)

theorem sameMap_readBytes (bus : Bus) (address : Word) (count : Nat) :
    bus.SameMap (bus.readBytes address count).2 := by
  induction count generalizing bus address with
  | zero => exact .refl bus
  | succ count ih => exact .trans (bus.sameMap_load ..) (ih _ _)

/-! ## Building a bus -/

/-- A bus without devices is sound. -/
theorem Sound.empty : Bus.empty.Sound := ⟨nofun, nofun⟩

/-- A device that is attached gets the next number and a range of its own. -/
theorem attach_eq_ok {bus after : Bus} {range : AddressRange} {device : Device} {number : Nat}
    (attached : bus.attach range device = .ok (number, after)) :
    (∀ entry, entry ∈ after.ranges.entries ↔
      entry = (range, bus.devices.size) ∨ entry ∈ bus.ranges.entries) ∧
    after.devices = bus.devices.push device ∧ after.accesses = bus.accesses := by
  unfold attach at attached
  split at attached
  · rename_i ranges inserted
    cases attached
    exact ⟨fun entry => AddressMap.mem_insert inserted, rfl, rfl⟩
  · cases attached

theorem lt_size_of_device? {bus : Bus} {number : Nat} {device : Device}
    (isDevice : bus.device? number = some device) : number < bus.devices.size :=
  (Array.getElem?_eq_some_iff.1 isDevice).1

theorem device?_push {bus after : Bus} {device : Device} {number : Nat}
    (devices : after.devices = bus.devices.push device) (old : number < bus.devices.size) :
    after.device? number = bus.device? number := by
  unfold device?
  rw [devices, Array.getElem?_push, if_neg (Nat.ne_of_lt old)]

/-- No region is lost when a device is attached. -/
theorem HasRegion.attach {bus after : Bus} {region : Region} (has : bus.HasRegion region)
    {range : AddressRange} {device : Device} {number : Nat}
    (attached : bus.attach range device = .ok (number, after)) : after.HasRegion region := by
  obtain ⟨members, devices, -⟩ := attach_eq_ok attached
  obtain ⟨old, isDevice, -⟩ := Option.map_eq_some_iff.1 has.2
  refine ⟨(members _).2 (.inr has.1), ?_⟩
  rw [device?_push devices (lt_size_of_device? isDevice)]
  exact has.2

/-- A bus stays sound when a device is attached, because that gets a number of its own. -/
theorem Sound.attach {bus after : Bus} (sound : bus.Sound) {range : AddressRange} {device : Device}
    {number : Nat} (attached : bus.attach range device = .ok (number, after)) : after.Sound := by
  obtain ⟨members, devices, -⟩ := attach_eq_ok attached
  have old : ∀ entry ∈ bus.ranges.entries, entry.2 < bus.devices.size := by
    intro entry member
    obtain ⟨device, isDevice⟩ := Option.isSome_iff_exists.1 (sound.attached entry member)
    exact lt_size_of_device? isDevice
  refine ⟨fun entry member => ?_, fun first memberFirst second memberSecond same => ?_⟩
  · rcases (members entry).1 member with rfl | oldMember
    · unfold device?
      rw [devices, Array.getElem?_push_size]
      rfl
    · rw [device?_push devices (old entry oldMember)]
      exact sound.attached entry oldMember
  · rcases (members first).1 memberFirst with rfl | oldFirst
    · rcases (members second).1 memberSecond with rfl | oldSecond
      · rfl
      · exact absurd same.symm (Nat.ne_of_lt (old second oldSecond))
    · rcases (members second).1 memberSecond with rfl | oldSecond
      · exact absurd same (Nat.ne_of_lt (old first oldFirst))
      · exact sound.distinct first oldFirst second oldSecond same

/-! ## Buses of memory alone -/

/-- A memory of the given bytes that is attached everywhere. Behind them it reads as zero and loses
what is written. -/
def allMemory (image : List Byte) : Bus where
  ranges := ⟨[(⟨0, 0xFFFFFFFF, by decide⟩, 0)], List.pairwise_singleton ..⟩
  devices := #[.ram ((Ram.zeros image.length).loadImage 0 image)]
  accesses := []

theorem inMemory_allMemory (image : List Byte) (address : Word) :
    (allMemory image).InMemory address := by
  refine ⟨⟨0, ⟨0, 0xFFFFFFFF, by decide⟩, .memory⟩, ?_, rfl⟩
  refine findRegion_eq_some_iff.2 ⟨⟨List.mem_cons_self, rfl⟩, ?_⟩
  refine AddressRange.contains_iff.2 ⟨BitVec.le_def.2 (Nat.zero_le _), BitVec.le_def.2 ?_⟩
  exact Nat.le_of_lt_succ address.isLt

theorem Sound.allMemory (image : List Byte) : (allMemory image).Sound := by
  refine ⟨fun entry member => ?_, fun first memberFirst second memberSecond _ => ?_⟩
  · rw [List.mem_singleton.1 member]
    rfl
  · rw [List.mem_singleton.1 memberFirst, List.mem_singleton.1 memberSecond]

end Bus

end Rv32
