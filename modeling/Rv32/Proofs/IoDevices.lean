import Rv32.Proofs.MemoryWords

/-!
# Devices of input and output

An access to an address in the range of a device of input and output reaches this device and is
entered into the ledger of the bus. `Bus.Serves` says that the devices served a list of accesses, in
order, and that nothing else happened to them.
-/

namespace Rv32

namespace Bus

/-- The region that an address lies in, if it is one of input and output. -/
def ioRegion? (bus : Bus) (address : Word) : Option Region :=
  (bus.findRegion address).filter fun region => !region.isMemory

end Bus

/-- The device after an access. -/
def DeviceAccess.apply (device : Device) (access : DeviceAccess) : Device :=
  match access.direction with
  | .read => (device.read access.offset access.width).2
  | .write => device.write access.offset access.value access.width

namespace Bus

/-- From one bus to the other the devices of input and output served these accesses, in this order,
and nothing else was done to them. -/
structure Serves (before : Bus) (accesses : List DeviceAccess) (after : Bus) : Prop where
  map : before.SameMap after
  ledger : after.accesses = accesses.reverse ++ before.accesses
  devices : ∀ number device, before.device? number = some device → device.kind = .io →
    after.device? number =
      some ((accesses.filter (·.device = number)).foldl DeviceAccess.apply device)

variable {before middle after bus : Bus} {accesses first second : List DeviceAccess}
  {address : Word} {region : Region}

namespace Serves

theorem refl (bus : Bus) : bus.Serves [] bus := ⟨.refl bus, rfl, fun _ _ isDevice _ => isDevice⟩

theorem trans (left : before.Serves first middle) (right : middle.Serves second after) :
    before.Serves (first ++ second) after := by
  refine ⟨left.map.trans right.map, ?_, fun number device isDevice io => ?_⟩
  · rw [right.ledger, left.ledger, List.reverse_append, List.append_assoc]
  · have served := left.devices number device isDevice io
    have kind := left.map.kinds number
    rw [served, isDevice] at kind
    rw [right.devices number _ served ((Option.some.inj kind).trans io), List.filter_append,
      List.foldl_append]

/-- What comes after nothing was served. -/
theorem after_nothing (left : before.Serves [] middle) (right : middle.Serves accesses after) :
    before.Serves accesses after :=
  left.trans right

end Serves

/-! ## Reads and writes -/

theorem ioRegion?_eq_some_iff : bus.ioRegion? address = some region ↔
    bus.findRegion address = some region ∧ region.isMemory = false := by
  unfold ioRegion?
  rw [Option.filter_eq_some_iff, Bool.not_eq_true']

/-- Where no region of input and output is, there is main memory or nothing at all. -/
theorem inMemory_or_of_ioRegion? (elsewhere : bus.ioRegion? address = none) :
    bus.InMemory address ∨ bus.findRegion address = none := by
  rcases found : bus.findRegion address with _ | region
  · exact .inr rfl
  · refine .inl ⟨region, found, ?_⟩
    cases memory : region.isMemory with
    | true => rfl
    | false =>
        rw [ioRegion?_eq_some_iff.2 ⟨found, memory⟩] at elsewhere
        cases elsewhere

/-- A region of input and output is that of a device of this kind. -/
theorem device_of_ioRegion? (isIo : bus.ioRegion? address = some region) :
    ∃ device, bus.device? region.device = some device ∧ device.kind = .io := by
  obtain ⟨found, io⟩ := ioRegion?_eq_some_iff.1 isIo
  obtain ⟨device, isDevice, kind⟩ :=
    Option.map_eq_some_iff.1 (findRegion_eq_some_iff.1 found).1.2
  refine ⟨device, isDevice, ?_⟩
  unfold Region.isMemory at io
  rw [← kind] at io
  cases isKind : device.kind with
  | memory =>
      rw [isKind] at io
      cases io
  | io => rfl

theorem ioRegion?_eq (same : before.SameMap after) (address : Word) :
    after.ioRegion? address = before.ioRegion? address := by
  unfold ioRegion?
  rw [same.findRegion_eq]

theorem serves_load_elsewhere (elsewhere : bus.ioRegion? address = none) (width : Width) :
    bus.Serves [] (bus.load address width).2 := by
  rcases inMemory_or_of_ioRegion? elsewhere with inside | nowhere
  · rw [load_of_inMemory inside]
    exact .refl bus
  · unfold load
    rw [nowhere]
    exact .refl bus

theorem serves_store_elsewhere (elsewhere : bus.ioRegion? address = none) (value : Word)
    (width : Width) : bus.Serves [] (bus.store address value width) := by
  rcases inMemory_or_of_ioRegion? elsewhere with inside | nowhere
  · obtain ⟨region, ram, found, -, isRam⟩ := inside.backed
    have stored := store_ram found isRam value width
    refine ⟨bus.sameMap_store .., stored.accesses, fun number device isDevice io => ?_⟩
    refine (stored.others number fun same => ?_).trans isDevice
    subst same
    rw [isRam] at isDevice
    cases isDevice
    cases io
  · unfold store
    rw [nowhere]
    exact .refl bus

section Io

variable {device : Device} (isIo : bus.ioRegion? address = some region)
  (isDevice : bus.device? region.device = some device) (io : device.kind = .io)

include isIo isDevice io

theorem load_of_io (width : Width) :
    bus.load address width =
      ((device.read (region.range.offsetOf address) width).1,
        { bus with
          devices := bus.devices.setIfInBounds region.device
            (device.read (region.range.offsetOf address) width).2
          accesses := ⟨region.device, .read, region.range.offsetOf address, width,
            (device.read (region.range.offsetOf address) width).1⟩ :: bus.accesses }) := by
  unfold load read
  rw [(ioRegion?_eq_some_iff.1 isIo).1]
  dsimp only
  rw [isDevice]
  dsimp only
  rw [io]
  rfl

/-- A load from a device of input and output changes this device only. -/
theorem device?_load_of_io (width : Width) (number : Nat) :
    (bus.load address width).2.device? number =
      if region.device = number then some (device.read (region.range.offsetOf address) width).2
      else bus.device? number := by
  obtain ⟨inside, -⟩ := Array.getElem?_eq_some_iff.1 isDevice
  rw [load_of_io isIo isDevice io]
  unfold device?
  dsimp only
  rw [Array.getElem?_setIfInBounds, if_pos inside]

theorem store_of_io (value : Word) (width : Width) :
    bus.store address value width =
      { bus.modifyDevice region.device (·.write (region.range.offsetOf address) value width) with
        accesses := ⟨region.device, .write, region.range.offsetOf address, width, value⟩ ::
          bus.accesses } := by
  obtain ⟨found, notMemory⟩ := ioRegion?_eq_some_iff.1 isIo
  unfold store write
  rw [found]
  dsimp only
  rw [isDevice, Option.map_some, io, notMemory, if_neg Bool.false_ne_true]
  rfl

end Io

/-- A device of input and output serves every read. -/
theorem serves_load (isIo : bus.ioRegion? address = some region) (width : Width) :
    bus.Serves
      [⟨region.device, .read, region.range.offsetOf address, width, (bus.load address width).1⟩]
      (bus.load address width).2 := by
  obtain ⟨device, isDevice, io⟩ := device_of_ioRegion? isIo
  refine ⟨bus.sameMap_load .., ?_, fun number other isOther _ => ?_⟩
  · rw [load_of_io isIo isDevice io]
    rfl
  · rw [device?_load_of_io isIo isDevice io]
    by_cases same : region.device = number
    · subst same
      obtain rfl := Option.some.inj (isDevice.symm.trans isOther)
      simp [DeviceAccess.apply]
    · simp [isOther, same]

/-- A device of input and output serves every write. -/
theorem serves_store (isIo : bus.ioRegion? address = some region) (value : Word) (width : Width) :
    bus.Serves [⟨region.device, .write, region.range.offsetOf address, width, value⟩]
      (bus.store address value width) := by
  obtain ⟨device, isDevice, io⟩ := device_of_ioRegion? isIo
  refine ⟨bus.sameMap_store .., ?_, fun number other isOther _ => ?_⟩
  · rw [store_of_io isIo isDevice io]
    rfl
  · have served := bus.device?_modifyDevice region.device number
      (·.write (region.range.offsetOf address) value width)
    rw [isOther] at served
    rw [store_of_io isIo isDevice io]
    refine served.trans ?_
    by_cases same : region.device = number
    · simp [DeviceAccess.apply, same]
    · simp [same]

end Bus

end Rv32
