import Mathlib.Logic.Relation
import Rv32.Proofs.MemoryWords
import Rv32.Proofs.Soundness
import Rv32.Proofs.Turns

/-!
# Accesses to a bus

Accesses change what the devices of a bus hold. They attach nothing and detach nothing, and of each
device they leave what it is, down to the size of a memory (`Bus.Accessed.form_device?`).

A machine does nothing on its bus but such accesses (`Machine.run_accessed`).
-/

namespace Rv32

/-- What a device is, whatever it holds. -/
inductive DeviceForm where
  | memory (size : Nat)
  | mailboxes
  | peripheral
deriving DecidableEq, Repr

namespace Device

def form : Device → DeviceForm
  | ram memory => .memory memory.size
  | htif _ => .mailboxes
  | peripheral _ => .peripheral

@[simp]
theorem form_read (device : Device) (offset : Word) (width : Width) :
    (device.read offset width).2.form = device.form := by
  cases device <;> rfl

@[simp]
theorem form_write (device : Device) (offset value : Word) (width : Width) :
    (device.write offset value width).form = device.form := by
  cases device with
  | ram memory => exact congrArg DeviceForm.memory (memory.size_write offset value width)
  | htif boxes => rfl
  | peripheral other => rfl

@[simp]
theorem form_markDirty (device : Device) (offset : Word) :
    (device.markDirty offset).form = device.form := by
  cases device <;> rfl

end Device

namespace Bus

/-- A device of the bus is read or written, or a change of it is noted. The region and the offset
need not be those of an address. The ledger may also be dropped. -/
inductive AccessStep : Bus → Bus → Prop
  | read (bus : Bus) (region : Region) (offset : Word) (width : Width) :
    AccessStep bus (bus.read region offset width).2
  | write (bus : Bus) (region : Region) (offset value : Word) (width : Width) :
    AccessStep bus (bus.write region offset value width)
  | markDirty (bus : Bus) (region : Region) (offset : Word) :
    AccessStep bus (bus.markDirty region offset)
  | forgetAccesses (bus : Bus) : AccessStep bus bus.forgetAccesses

/-- The one bus becomes the other by accesses. -/
abbrev Accessed : Bus → Bus → Prop :=
  Relation.ReflTransGen AccessStep

variable {before after : Bus} {number : Nat}

/-! ## What accesses keep -/

theorem AccessStep.sameMap (step : AccessStep before after) : before.SameMap after := by
  cases step with
  | read region offset width => exact before.sameMap_read region offset width
  | write region offset value width => exact before.sameMap_write region offset value width
  | markDirty region offset => exact before.sameMap_markDirty region offset
  | forgetAccesses => exact ⟨rfl, fun _ => rfl⟩

theorem AccessStep.form_device? (step : AccessStep before after) (number : Nat) :
    (after.device? number).map Device.form = (before.device? number).map Device.form := by
  cases step with
  | read region offset width =>
      unfold Bus.read
      split
      · rename_i device isDevice
        dsimp only
        rw [device?_record]
        exact before.map_device?_replace isDevice number _ (device.form_read offset width)
      · rfl
  | write region offset value width =>
      unfold Bus.write
      split
      · rw [device?_record]
        exact before.map_device?_modifyDevice _ number _ fun device => device.form_write ..
      · rfl
  | markDirty region offset =>
      exact before.map_device?_modifyDevice _ number _ fun device => device.form_markDirty offset
  | forgetAccesses => rfl

theorem Accessed.sameMap (accessed : before.Accessed after) : before.SameMap after := by
  induction accessed with
  | refl => exact .refl before
  | tail _ step ih => exact ih.trans step.sameMap

/-- Accesses leave every device what it is. -/
theorem Accessed.form_device? (accessed : before.Accessed after) (number : Nat) :
    (after.device? number).map Device.form = (before.device? number).map Device.form := by
  induction accessed with
  | refl => rfl
  | tail _ step ih => exact (step.form_device? number).trans ih

theorem Accessed.mailboxes (accessed : before.Accessed after) {boxes : Htif}
    (isHtif : before.device? number = some (.htif boxes)) :
    ∃ changed, after.device? number = some (.htif changed) := by
  have form := accessed.form_device? number
  rw [isHtif] at form
  obtain ⟨device, isDevice, same⟩ := Option.map_eq_some_iff.1 form
  cases device with
  | ram memory => cases same
  | htif changed => exact ⟨changed, isDevice⟩
  | peripheral other => cases same

theorem Accessed.memory (accessed : before.Accessed after) {ram : Ram}
    (isRam : after.device? number = some (.ram ram)) :
    ∃ unchanged, before.device? number = some (.ram unchanged) ∧ unchanged.size = ram.size := by
  have form := accessed.form_device? number
  rw [isRam] at form
  obtain ⟨device, isDevice, same⟩ := Option.map_eq_some_iff.1 form.symm
  cases device with
  | ram unchanged => exact ⟨unchanged, isDevice, DeviceForm.memory.inj same⟩
  | htif boxes => cases same
  | peripheral other => cases same

/-! ## What is made of accesses -/

theorem accessed_load (bus : Bus) (address : Word) (width : Width) :
    bus.Accessed (bus.load address width).2 := by
  unfold load
  split
  · exact .single (.read ..)
  · exact .refl

theorem accessed_store (bus : Bus) (address value : Word) (width : Width) :
    bus.Accessed (bus.store address value width) := by
  unfold store
  split
  · dsimp only
    split
    · exact .tail (.single (.write ..)) (.markDirty ..)
    · exact .single (.write ..)
  · exact .refl

theorem accessed_writeBytes (bus : Bus) (address : Word) (bytes : List Byte) :
    bus.Accessed (bus.writeBytes address bytes) := by
  induction bytes generalizing bus address with
  | nil => exact .refl
  | cons byte rest ih => exact .trans (bus.accessed_store ..) (ih _ _)

end Bus

namespace Machine

/-- From one machine to the other the bus was accessed. -/
def BusAccessed (before after : Machine) : Prop := before.bus.Accessed after.bus

theorem BusAccessed.refl (machine : Machine) : machine.BusAccessed machine :=
  Relation.ReflTransGen.refl

theorem BusAccessed.trans (first second third : Machine) (left : first.BusAccessed second)
    (right : second.BusAccessed third) : first.BusAccessed third :=
  Relation.ReflTransGen.trans left right

theorem markUsed_busAccessed (location : Word) (entry : PageTableEntry) (kind : AccessKind) :
    (markUsed location entry kind).Within BusAccessed := by
  intro machine
  unfold markUsed
  rw [Effect.outcome_ite]
  split
  · exact .refl _
  · exact machine.bus.accessed_store ..

theorem BusAccessed.respects : Respects BusAccessed where
  refl := .refl
  trans := .trans
  locate := fun address kind => by
    refine locate_within .refl .trans ?_ fun machine _ _ _ => .refl machine
    exact translate_within .refl .trans (fun _ machine => machine.bus.accessed_load ..)
      (fun _ _ => markUsed_busAccessed _) address kind
  read := fun physical region? width machine => by
    cases region? with
    | none => exact .refl _
    | some region => exact Relation.ReflTransGen.single (.read ..)
  write := fun physical region? value width machine => by
    cases region? with
    | none => exact .refl _
    | some region =>
        unfold writeLocated BusAccessed
        rw [Effect.outcome_modifyBus]
        dsimp only
        split
        · exact .tail (.single (.write ..)) (.markDirty ..)
        · exact .single (.write ..)
  reserve := fun machine _ => .refl machine

theorem cycle_busAccessed (machine : Machine) :
    machine.BusAccessed (cycle.outcome machine).2 := by
  have executes : executeNext.Within BusAccessed :=
    executeNext_within (fun machine _ _ => .refl machine) BusAccessed.respects
  unfold BusAccessed
  rcases pending : machine.hart.nextInterrupt with _ | interrupt
  · rw [bus_cycle pending]
    exact executes machine.counted
  · rw [bus_cycle_of_interrupt pending]

/-- All that a run does on the bus are accesses. -/
theorem run_accessed (machine : Machine) (budget : Nat) :
    machine.bus.Accessed (machine.run budget).value.bus :=
  run_keeps machine.BusAccessed
    (fun after accessed _ => .trans _ _ _ accessed (cycle_busAccessed after))
    (fun _ _ accessed => accessed) (.refl machine) budget

end Machine

end Rv32
