import Rv32.Proofs.Attachment
import Rv32.Proofs.BusAccesses
import Rv32.Proofs.IoDevices
import Rv32.Proofs.Mailboxes
import Rv32.TestRun

/-!
# The address space of a test is complete

The mailboxes of a test cut main memory into the bytes below them and the bytes behind them, either
of which may be none. `TestLayout.bus_exact` says that nothing is missing and nothing is doubled: an
address leads to the mailboxes if it lies in their window, to memory if it lies in the 32 MiB but
not in the window, and nowhere otherwise. So it remains whatever is accessed, and what the runner
reads is the contents of the mailbox `tohost`. A test that is run sees it there after every step
(`TestRun.steps_tohost`).
-/

namespace Rv32

namespace TestLayout

variable {bus after : Bus} {start stop length tohost address : Word} {device : Device}

theorem attach_eq_ok_iff : attach bus start length device = .ok after ↔
    ∃ range number, AddressRange.ofLength start length = .ok range ∧
      bus.attach range device = .ok (number, after) := by
  unfold attach
  constructor
  · intro built
    split at built
    · cases built
    · rename_i range made
      split at built
      · cases built
      · rename_i number other attached
        cases built
        exact ⟨range, number, made, attached⟩
  · rintro ⟨range, number, made, attached⟩
    rw [made]
    dsimp only
    rw [attached]

/-- A device can be attached exactly where it fits below the end of the address space and nothing is
found yet. -/
theorem exists_attach_iff (sound : bus.Sound) (positive : 0 < length.toNat)
    (fits : start.toNat + length.toNat ≤ 0x100000000) :
    (∃ after, attach bus start length device = .ok after) ↔
      ∀ address : Word, address.Between start.toNat (start.toNat + length.toNat) →
        bus.findRegion address = none := by
  obtain ⟨range, made⟩ := AddressRange.exists_ofLength positive fits
  obtain ⟨first, size⟩ := AddressRange.ofLength_eq_ok made
  have free : (∃ number after, bus.attach range device = .ok (number, after)) ↔ _ :=
    sound.exists_attach_iff
  simp only [AddressRange.contains_iff_between, first, size] at free
  rw [← free]
  simp only [attach_eq_ok_iff, made, Except.ok.injEq]
  constructor
  · rintro ⟨after, range, number, rfl, attached⟩
    exact ⟨number, after, attached⟩
  · rintro ⟨number, after, attached⟩
    exact ⟨after, range, number, rfl, attached⟩

/-! ## Main memory -/

/-- Memory is attached at these addresses, as much as they need, and nothing else is attached. -/
structure Memory (bus : Bus) (places : Word → Prop) : Prop where
  sound : bus.Sound
  backed : ∀ entry ∈ bus.ranges.entries,
    ∃ ram, bus.device? entry.2 = some (.ram ram) ∧ ram.size = entry.1.size
  vacant_iff : ∀ address, bus.findRegion address = none ↔ ¬ places address

theorem memory_empty : Memory .empty fun _ => False where
  sound := .empty
  backed := nofun
  vacant_iff := fun _ => iff_of_true rfl id

theorem Memory.congr {places others : Word → Prop} (memory : Memory bus places)
    (same : ∀ address, places address ↔ others address) : Memory bus others :=
  ⟨memory.sound, memory.backed, fun address => by rw [memory.vacant_iff, same]⟩

theorem Memory.attach {places : Word → Prop} (memory : Memory bus places) {range : AddressRange}
    {ram : Ram} {number : Nat} (size : ram.size = range.size)
    (attached : bus.attach range (.ram ram) = .ok (number, after)) :
    Memory after fun address => places address ∨ range.contains address = true := by
  refine ⟨memory.sound.attach attached, fun entry member => ?_, fun address => ?_⟩
  · rcases (Bus.mem_attach attached).1 member with rfl | old
    · exact ⟨ram, Bus.device?_attached attached, size⟩
    · obtain ⟨backing, isBacking, same⟩ := memory.backed entry old
      exact ⟨backing, Bus.device?_attach attached isBacking, same⟩
  · rw [memory.sound.findRegion_attach_eq_none_iff attached, memory.vacant_iff, not_or]

/-- Where memory is added, there must not be any yet. -/
theorem Memory.attachMemory {places : Word → Prop} (memory : Memory bus places) (start stop : Word)
    (apart : ∀ address, places address → ¬ address.Between start.toNat stop.toNat) :
    ∃ after, attachMemory bus start stop = .ok after ∧
      Memory after fun address => places address ∨ address.Between start.toNat stop.toNat := by
  unfold TestLayout.attachMemory
  split
  · rename_i ordered
    have upwards := BitVec.lt_def.1 ordered
    have size : (stop - start).toNat = stop.toNat - start.toNat :=
      BitVec.toNat_sub_of_le (BitVec.le_def.2 (Nat.le_of_lt upwards))
    have reaches : start.toNat + (stop - start).toNat = stop.toNat := by omega
    have positive : 0 < (stop - start).toNat := by omega
    have fits : start.toNat + (stop - start).toNat ≤ 0x100000000 := by
      rw [reaches]
      exact Nat.le_of_lt stop.isLt
    have free : ∀ address : Word,
        address.Between start.toNat (start.toNat + (stop - start).toNat) →
          bus.findRegion address = none := by
      intro address inside
      rw [reaches] at inside
      exact (memory.vacant_iff address).2 fun taken => apart address taken inside
    obtain ⟨after, attached⟩ := (exists_attach_iff memory.sound positive fits).2 free
    refine ⟨after, attached, ?_⟩
    obtain ⟨range, number, made, attached⟩ := attach_eq_ok_iff.1 attached
    obtain ⟨first, rangeSize⟩ := AddressRange.ofLength_eq_ok made
    have added := memory.attach ((Ram.size_zeros _).trans rangeSize.symm) attached
    refine added.congr fun address => ?_
    rw [AddressRange.contains_iff_between, first, rangeSize, reaches]
  · rename_i unordered
    refine ⟨bus, rfl, memory.sound, memory.backed, fun address => ?_⟩
    have outside : ¬ address.Between start.toNat stop.toNat := by
      rw [BitVec.lt_def] at unordered
      unfold Word.Between
      omega
    rw [memory.vacant_iff, or_iff_left outside]

theorem Memory.inMemory_iff {places : Word → Prop} (memory : Memory bus places) :
    bus.InMemory address ↔ places address := by
  constructor
  · rintro ⟨region, found, -⟩
    by_contra elsewhere
    rw [(memory.vacant_iff address).2 elsewhere] at found
    cases found
  · intro here
    rcases found : bus.findRegion address with _ | region
    · exact absurd here ((memory.vacant_iff address).1 found)
    · have has := (Bus.findRegion_eq_some_iff.1 found).1
      obtain ⟨ram, isRam, -⟩ := memory.backed _ has.1
      exact ⟨region, found, has.isMemory isRam⟩

theorem exists_attachMemory_empty (start stop : Word) :
    ∃ after, attachMemory .empty start stop = .ok after ∧
      Memory after (Word.Between start.toNat stop.toNat) := by
  obtain ⟨after, attached, memory⟩ := memory_empty.attachMemory start stop fun _ => False.elim
  exact ⟨after, attached, memory.congr fun _ => Iff.of_eq (false_or _)⟩

/-- The addresses of the 32 MiB. -/
def InMainMemory (address : Word) : Prop := address.Between memoryStart.toNat memoryStop.toNat

/-- The addresses of the mailboxes. -/
def InMailboxes (tohost address : Word) : Prop :=
  address.Between tohost.toNat (tohost.toNat + Htif.length.toNat)

instance (address : Word) : Decidable (InMainMemory address) :=
  inferInstanceAs (Decidable (address.Between _ _))

instance (tohost address : Word) : Decidable (InMailboxes tohost address) :=
  inferInstanceAs (Decidable (address.Between _ _))

/-- Where memory goes on behind mailboxes that start inside it. -/
def memoryRestart (tohost : Word) : Word :=
  if tohost + Htif.length ≤ memoryStop then tohost + Htif.length else memoryStop

theorem toNat_memoryRestart (fits : tohost.toNat + Htif.length.toNat < 0x100000000) :
    (memoryRestart tohost).toNat =
      min (tohost.toNat + Htif.length.toNat) memoryStop.toNat := by
  have stop : (tohost + Htif.length).toNat = tohost.toNat + Htif.length.toNat := by
    rw [BitVec.toNat_add, Nat.mod_eq_of_lt fits]
  unfold memoryRestart
  rw [← stop]
  split
  · rename_i inside
    exact (Nat.min_eq_left (BitVec.le_def.1 inside)).symm
  · rename_i beyond
    exact (Nat.min_eq_right (Nat.le_of_lt (BitVec.lt_def.1 (BitVec.not_le.1 beyond)))).symm

/-- The part of a test's address space that is memory. -/
def memoryAround (tohost : Word) : Except LayoutError Bus :=
  if memoryStart ≤ tohost ∧ tohost < memoryStop then do
    let below ← attachMemory .empty memoryStart tohost
    attachMemory below (memoryRestart tohost) memoryStop
  else attachMemory .empty memoryStart memoryStop

theorem bus_eq (tohost : Word) : TestLayout.bus tohost =
    if 0x100000000 ≤ tohost.toNat + Htif.length.toNat then .error .tohostTooHigh
    else memoryAround tohost >>= fun memory => attach memory tohost Htif.length (.htif .empty) := by
  unfold TestLayout.bus memoryAround
  by_cases inside : memoryStart ≤ tohost ∧ tohost < memoryStop
  · simp only [if_pos inside, bind_assoc]
    split <;> rfl
  · simp only [if_neg inside]
    split <;> rfl

/-- Main memory is attached where the mailboxes leave room for it. Mailboxes that start elsewhere
leave all of it alone. -/
theorem exists_memoryAround (fits : tohost.toNat + Htif.length.toNat < 0x100000000) :
    ∃ memory, memoryAround tohost = .ok memory ∧ Memory memory fun address =>
      InMainMemory address ∧ ¬ (InMainMemory tohost ∧ InMailboxes tohost address) := by
  have starts : memoryStart ≤ tohost ∧ tohost < memoryStop ↔ InMainMemory tohost := by
    unfold InMainMemory Word.Between
    rw [BitVec.le_def, BitVec.lt_def]
  unfold memoryAround
  split
  · rename_i started
    have inside := starts.1 started
    obtain ⟨below, attachedBelow, memoryBelow⟩ := exists_attachMemory_empty memoryStart tohost
    have restart := toNat_memoryRestart fits
    rw [attachedBelow]
    change ∃ memory, attachMemory below (memoryRestart tohost) memoryStop = .ok memory ∧ _
    have apart : ∀ address : Word,
        address.Between memoryStart.toNat tohost.toNat →
          ¬ address.Between (memoryRestart tohost).toNat memoryStop.toNat := by
      unfold InMainMemory Word.Between at *
      omega
    obtain ⟨memory, attached, isMemory⟩ := memoryBelow.attachMemory _ memoryStop apart
    refine ⟨memory, attached, isMemory.congr fun address => ?_⟩
    unfold InMailboxes InMainMemory Word.Between at *
    omega
  · rename_i elsewhere
    obtain ⟨memory, attached, isMemory⟩ := exists_attachMemory_empty memoryStart memoryStop
    refine ⟨memory, attached, isMemory.congr fun address => ?_⟩
    exact (and_iff_left fun both => elsewhere (starts.2 both.1)).symm

/-- Mailboxes can be placed anywhere but at the end of the address space and across the start of
main memory. -/
theorem exists_bus_iff : (∃ bus, TestLayout.bus tohost = .ok bus) ↔
    tohost.toNat + Htif.length.toNat < 0x100000000 ∧
      (memoryStart.toNat ≤ tohost.toNat ∨
        tohost.toNat + Htif.length.toNat ≤ memoryStart.toNat) := by
  rw [bus_eq]
  split
  · rename_i tooHigh
    exact iff_of_false nofun fun both => Nat.not_lt.2 tooHigh both.1
  · rename_i notTooHigh
    have fits : tohost.toNat + Htif.length.toNat < 0x100000000 := Nat.not_le.1 notTooHigh
    obtain ⟨memory, built, isMemory⟩ := exists_memoryAround fits
    rw [built]
    change (∃ bus, attach memory tohost Htif.length (.htif .empty) = .ok bus) ↔ _
    rw [exists_attach_iff isMemory.sound (by decide) (Nat.le_of_lt fits), and_iff_right fits]
    simp only [isMemory.vacant_iff]
    have nonempty : memoryStart.toNat < memoryStop.toNat := by decide
    constructor
    · intro free
      by_contra across
      -- Mailboxes across the start of memory would have to share its first address.
      have first := free memoryStart
      unfold InMailboxes InMainMemory Word.Between at first
      omega
    · intro placed address inside both
      unfold InMailboxes InMainMemory Word.Between at *
      omega

/-! ## The whole address space -/

/-- An address space of a test in which nothing is missing and nothing is doubled. The mailboxes are
the device with this number and have these contents. -/
structure LaidOut (tohost : Word) (number : Nat) (boxes : Htif) (bus : Bus) : Prop where
  fits : tohost.toNat + Htif.length.toNat < 0x100000000
  device : bus.device? number = some (.htif boxes)
  mailboxes_iff : ∀ address,
    (∃ region, bus.findRegion address = some region ∧ region.device = number) ↔
      InMailboxes tohost address
  offset : ∀ address region, bus.findRegion address = some region → region.device = number →
    region.range.offsetOf address = address - tohost
  memory_iff : ∀ address,
    bus.InMemory address ↔ InMainMemory address ∧ ¬ InMailboxes tohost address
  vacant_iff : ∀ address,
    bus.findRegion address = none ↔ ¬ InMainMemory address ∧ ¬ InMailboxes tohost address
  sizes : ∀ entry ∈ bus.ranges.entries, ∀ ram, bus.device? entry.2 = some (.ram ram) →
    ram.size = entry.1.size

/-- The mailboxes are attached at last. Where they are, there is nothing else. -/
theorem exists_laidOut (built : TestLayout.bus tohost = .ok bus) :
    ∃ number, LaidOut tohost number .empty bus := by
  rw [bus_eq] at built
  split at built
  · cases built
  rename_i notTooHigh
  have fits : tohost.toNat + Htif.length.toNat < 0x100000000 := Nat.not_le.1 notTooHigh
  obtain ⟨memory, isBuilt, isMemory⟩ := exists_memoryAround fits
  rw [isBuilt] at built
  obtain ⟨range, number, made, attached⟩ := attach_eq_ok_iff.1 built
  obtain ⟨first, size⟩ := AddressRange.ofLength_eq_ok made
  have sound := isMemory.sound
  have inRange (address : Word) : range.contains address = true ↔ InMailboxes tohost address := by
    rw [AddressRange.contains_iff_between, first, size]
    rfl
  refine ⟨number,
    { fits
      device := Bus.device?_attached attached
      mailboxes_iff := fun address => ?_
      offset := fun address region found here => ?_
      memory_iff := fun address => ?_
      vacant_iff := fun address => ?_
      sizes := fun entry member ram isRam => ?_ }⟩
  · rw [sound.exists_attached_iff attached, inRange]
  · obtain ⟨-, rfl⟩ := sound.eq_of_findRegion_attach attached found here
    unfold AddressRange.offsetOf
    rw [first]
  · rw [sound.inMemory_attach_iff attached rfl, isMemory.inMemory_iff, inRange, and_assoc]
    refine and_congr_right fun _ => and_iff_right_of_imp fun elsewhere both => elsewhere both.2
  · rw [sound.findRegion_attach_eq_none_iff attached, isMemory.vacant_iff, inRange]
    refine and_congr_left fun elsewhere => not_congr (and_iff_left ?_)
    exact fun both => elsewhere both.2
  · rcases (Bus.mem_attach attached).1 member with rfl | old
    · rw [Bus.device?_attached attached] at isRam
      cases isRam
    · obtain ⟨backing, isBacking, same⟩ := isMemory.backed entry old
      rw [Bus.device?_attach attached isBacking] at isRam
      cases isRam
      exact same

section Accesses

variable {number : Nat} {boxes : Htif} (laidOut : LaidOut tohost number boxes bus)

include laidOut

/-- Accesses change the contents of the mailboxes at most. -/
theorem LaidOut.accessed (accessed : bus.Accessed after) {changed : Htif}
    (isHtif : after.device? number = some (.htif changed)) :
    LaidOut tohost number changed after := by
  have same := accessed.sameMap
  refine
    { fits := laidOut.fits
      device := isHtif
      mailboxes_iff := fun address => ?_
      offset := fun address region found => ?_
      memory_iff := fun address => ?_
      vacant_iff := fun address => ?_
      sizes := fun entry member ram isRam => ?_ }
  · rw [same.findRegion_eq]
    exact laidOut.mailboxes_iff address
  · rw [same.findRegion_eq] at found
    exact laidOut.offset address region found
  · unfold Bus.InMemory
    rw [same.findRegion_eq]
    exact laidOut.memory_iff address
  · rw [same.findRegion_eq]
    exact laidOut.vacant_iff address
  · rw [same.ranges] at member
    obtain ⟨unchanged, isUnchanged, size⟩ := accessed.memory isRam
    exact size.symm.trans (laidOut.sizes entry member unchanged isUnchanged)

/-- A load from the mailboxes reads what they hold and leaves it there. -/
theorem LaidOut.load (inside : InMailboxes tohost address) (width : Width) :
    (bus.load address width).1 = boxes.read (address - tohost) width ∧
      LaidOut tohost number boxes (bus.load address width).2 := by
  obtain ⟨region, found, rfl⟩ := (laidOut.mailboxes_iff address).2 inside
  have offset := laidOut.offset address region found rfl
  have notMemory : region.isMemory = false := by
    refine Bool.eq_false_iff.2 fun isMemory => ?_
    exact ((laidOut.memory_iff address).1 ⟨region, found, isMemory⟩).2 inside
  have isIo := Bus.ioRegion?_eq_some_iff.2 ⟨found, notMemory⟩
  refine ⟨?_, laidOut.accessed (bus.accessed_load address width) ?_⟩
  · rw [Bus.load_of_io isIo laidOut.device rfl, offset]
    rfl
  · rw [Bus.device?_load_of_io isIo laidOut.device rfl, if_pos rfl]
    rfl

theorem LaidOut.readTohost :
    (readTohost bus tohost).1 = boxes.tohost ∧
      LaidOut tohost number boxes (readTohost bus tohost).2 := by
  have fits := laidOut.fits
  have length : Htif.length.toNat = 0x48 := rfl
  have low : InMailboxes tohost tohost := by
    unfold InMailboxes Word.Between
    omega
  have high : InMailboxes tohost (tohost + 4) := by
    have four : (4 : Word).toNat = 4 := rfl
    have place : (tohost + 4).toNat = tohost.toNat + 4 := by
      rw [BitVec.toNat_add, four]
      omega
    unfold InMailboxes Word.Between
    omega
  obtain ⟨lowWord, middle⟩ := laidOut.load low .word
  obtain ⟨highWord, last⟩ := middle.load high .word
  refine ⟨?_, last⟩
  change (((bus.load tohost .word).2.load (tohost + 4) .word).1 ++ (bus.load tohost .word).1 :
    DoubleWord) = _
  rw [lowWord, highWord, BitVec.sub_self, BitVec.add_comm, BitVec.add_sub_cancel]
  exact boxes.append_read_tohost

end Accesses

/-- A test's address space has no gap and no overlap. It can be built wherever in main memory the
mailboxes start. Once it is built, whatever is accessed, an address leads to the mailboxes just in
their window, to memory just in the rest of the 32 MiB, and nowhere otherwise, and what the runner
reads is the contents of `tohost`. -/
theorem bus_exact (tohost : Word) :
    (InMainMemory tohost → ∃ bus, TestLayout.bus tohost = .ok bus) ∧
      ∀ bus after, TestLayout.bus tohost = .ok bus → bus.Accessed after →
        ∃ number boxes, LaidOut tohost number boxes after ∧
          (readTohost after tohost).1 = boxes.tohost := by
  refine ⟨fun inside => exists_bus_iff.2 ⟨?_, .inl inside.1⟩, fun bus after built accessed => ?_⟩
  · have stop : memoryStop.toNat + Htif.length.toNat < 0x100000000 := by decide
    have below := inside.2
    omega
  · obtain ⟨number, laidOut⟩ := exists_laidOut built
    obtain ⟨boxes, isHtif⟩ := accessed.mailboxes laidOut.device
    have still := laidOut.accessed accessed isHtif
    exact ⟨number, boxes, still, still.readTohost.1⟩

/-- Mailboxes that start at the last byte of main memory and stick out of it. -/
theorem lastByte_bus :
    ∃ bus, TestLayout.bus 0x81FFFFFF = .ok bus ∧ bus.InMemory 0x81FFFFFE ∧
      ¬ bus.InMemory 0x81FFFFFF ∧ bus.findRegion 0x82000047 = none ∧
      ∃ number boxes,
        (bus.store 0x81FFFFFF 1 .word).device? number = some (.htif boxes) ∧
        (readTohost (bus.store 0x81FFFFFF 1 .word) 0x81FFFFFF).1 = boxes.tohost := by
  obtain ⟨builds, exact⟩ := bus_exact 0x81FFFFFF
  obtain ⟨bus, built⟩ := builds (by decide)
  obtain ⟨_, _, fresh, -⟩ := exact bus bus built .refl
  obtain ⟨number, boxes, stored, reads⟩ := exact bus _ built (bus.accessed_store 0x81FFFFFF 1 .word)
  refine ⟨bus, built, (fresh.memory_iff _).2 (by decide), fun taken => ?_,
    (fresh.vacant_iff _).2 (by decide), number, boxes, stored.device, reads⟩
  exact absurd ((fresh.memory_iff _).1 taken) (by decide)

end TestLayout

/-! ## A test that is run -/

namespace TestRun

open TestLayout

variable {program : Executable} {tohost : Word} {verbosity number : Nat} {run : TestRun}
  {bus loaded : Bus}

theorem loadSegments_accessed (isLoaded : loadSegments bus program = .ok loaded) :
    bus.Accessed loaded := by
  unfold loadSegments at isLoaded
  generalize program.segments = segments at isLoaded
  induction segments generalizing bus with
  | nil =>
      cases isLoaded
      exact .refl
  | cons segment rest ih =>
      rw [List.foldlM_cons] at isLoaded
      rcases has : segment.contents with _ | contents
      · rw [has] at isLoaded
        cases isLoaded
      · rw [has] at isLoaded
        exact .trans (bus.accessed_writeBytes ..) (ih isLoaded)

theorem start_laidOut (started : start program tohost verbosity = .ok run) :
    ∃ number boxes, LaidOut tohost number boxes run.machine.bus := by
  unfold start at started
  rcases built : TestLayout.bus tohost with refused | bus
  · rw [built] at started
    cases started
  rw [built] at started
  change loadSegments bus program >>= _ = _ at started
  rcases isLoaded : loadSegments bus program with refused | loaded
  · rw [isLoaded] at started
    cases started
  rw [isLoaded] at started
  cases started
  have accessed := loadSegments_accessed isLoaded
  obtain ⟨number, laidOut⟩ := exists_laidOut built
  obtain ⟨boxes, isHtif⟩ := accessed.mailboxes laidOut.device
  exact ⟨number, boxes, laidOut.accessed accessed isHtif⟩

/-- Each step ends with a look at the mailbox. -/
theorem step_tohost {boxes : Htif} (laidOut : LaidOut tohost number boxes run.machine.bus)
    (verbosity : Nat) :
    ∃ changed, LaidOut tohost number changed (run.step tohost verbosity).machine.bus ∧
      (run.step tohost verbosity).tohost = changed.tohost := by
  have ran := run.machine.run_accessed cyclesPerStep
  obtain ⟨changed, isHtif⟩ := ran.mailboxes laidOut.device
  obtain ⟨reads, after⟩ := (laidOut.accessed ran isHtif).readTohost
  exact ⟨changed, after.accessed (.single (.forgetAccesses _)) after.device, reads⟩

/-- However many steps a test takes, it knows at the end what its mailbox holds. -/
theorem steps_tohost (started : start program tohost verbosity = .ok run) (count : Nat) :
    ∃ number boxes,
      LaidOut tohost number boxes (run.steps tohost verbosity (count + 1)).machine.bus ∧
      (run.steps tohost verbosity (count + 1)).tohost = boxes.tohost := by
  obtain ⟨number, boxes, laidOut⟩ := start_laidOut started
  refine ⟨number, ?_⟩
  clear started
  induction count generalizing run boxes with
  | zero =>
      unfold steps
      dsimp only
      split <;> exact step_tohost laidOut verbosity
  | succ count ih =>
      unfold steps
      dsimp only
      obtain ⟨changed, still, reads⟩ := step_tohost laidOut verbosity
      split
      · exact ⟨changed, still, reads⟩
      · exact ih changed still

end TestRun

end Rv32
