import Rv32.Proofs.CsrAccess
import Rv32.Proofs.Lockstep
import Rv32.Proofs.Sessions

/-!
# Snapshots are complete

The registers of a hart hold legal contents by their types, so every snapshot that a hart gives is
one that harts accept, and reads back field by field (`Hart.restore_snapshot`). What a snapshot
leaves out is the configuration and the clock, which restoring keeps, and the caches, which it
empties.

`Machine.session` is any sequence of calls that a host makes, with the answers it gets.
`Machine.snapshot_complete` says that no such sequence tells a machine that took over a snapshot
from the machine that gave it and then emptied its caches. The two buses need not be one: they have
the same contents, and what either was used for before is not asked.
-/

namespace Rv32

/-! ## Reading back a snapshot -/

theorem Status.ofWord?_toWord (status : Status) : ofWord? status.toWord = some status := by
  unfold ofWord?
  rw [ofFields_toWord]
  exact if_pos rfl

theorem TrapVector.ofWord?_bits (vector : TrapVector) : ofWord? vector.bits = some vector := by
  have legal : vector.bits.getLsbD 1 = (vector.bits &&& vectorBits).getLsbD 1 := by
    rw [vector.bits_legal]
  have mode : vector.bits.getLsbD 1 = false := by
    rw [legal, BitVec.getLsbD_and]
    exact Bool.and_false _
  unfold ofWord?
  rw [if_neg (Bool.eq_false_iff.1 mode), Warl.ofWord_bits]

theorem Registers.ofVector_x (registers : Registers) :
    ofVector registers.x registers.pc = registers := by
  have same : registers.x.set 0 0 = registers.x := by
    rw [← registers.x_zero]
    exact Vector.set_getElem_self ..
  cases registers
  unfold ofVector
  congr

theorem TrapRecord.ofWords_eq (record : TrapRecord) :
    ofWords record.scratch record.epc.bits record.cause record.tval = record := by
  unfold ofWords
  rw [Warl.ofWord_bits]

theorem Interrupts.ofWords_eq (interrupts : Interrupts) :
    ofWords interrupts.mideleg.bits interrupts.mip interrupts.mie.bits = interrupts := by
  unfold ofWords
  rw [Warl.ofWord_bits, Warl.ofWord_bits]

/-- A hart accepts every snapshot, and becomes the hart that gave it, with empty caches. -/
theorem Hart.restore_snapshot {hart other : Hart} (config : other.config = hart.config)
    (clock : other.clock = hart.clock) : other.restore hart.snapshot = .ok hart.flush := by
  unfold restore snapshot
  dsimp only
  rw [Status.ofWord?_toWord, TrapVector.ofWord?_bits, TrapVector.ofWord?_bits]
  dsimp only
  rw [Registers.ofVector_x, TrapRecord.ofWords_eq, TrapRecord.ofWords_eq, Interrupts.ofWords_eq,
    Warl.ofWord_bits, Warl.ofWord_bits, Warl.ofWord_bits, Warl.ofWord_bits, config, clock]
  rfl

/-! ## Machines with the same hart -/

/-- A hart tracks itself. -/
theorem Hart.tracksSystem_eq : Hart.TracksSystem (fun first second => second = first)
    (fun _ => True) where
  registers same := by rw [same]
  tlb same := by rw [same]
  reservation same := by rw [same]
  context same _ := by rw [same]
  withRegisters same _ := by rw [same]
  withTlb same _ := by rw [same]
  withReservation same _ := by rw [same]
  privilege same := by rw [same]
  locks same := by rw [same]; exact ⟨rfl, rfl, rfl⟩
  interrupts same := by rw [same]
  checkCsr same _ _ := by rw [same]
  reached _ _ _ _ _ _ := trivial
  readCsr same _ _ := by rw [same]
  writeCsr same _ _ _ := by rw [same]
  returnFromSupervisor same := by rw [same]
  returnFromMachine same _ := by rw [same]
  halt same := by rw [same]

namespace Machine

/-- The machines have the same hart, and their buses echo each other. -/
abbrev SameHart (left right : List DeviceAccess) (first second : Machine) : Prop :=
  InStep (fun hart hartToo => hartToo = hart) left right first second

namespace SameHart

variable {left right : List DeviceAccess} {first second : Machine}

theorem cycle (same : SameHart left right first second) :
    (cycle.outcome second).1 = (cycle.outcome first).1 ∧
      SameHart left right (cycle.outcome first).2 (cycle.outcome second).2 := by
  have executes : Attempt.Agree (SameHart left right) executeNext executeNext :=
    Hart.tracksSystem_eq.executeNext
  refine cycle_agrees ?_ ?_ executes (fun _ _ same => same) ?_ same
  · exact fun _ _ same => by rw [same.hart]
  · exact fun _ _ same => same.withHart (by rw [same.hart])
  · exact fun _ _ same cause => same.withHart (by rw [same.hart])

theorem run (same : SameHart left right first second) (cycles : Nat) :
    SameHart left right (first.run cycles).value (second.run cycles).value := by
  refine run_agrees ?_ ?_ (fun _ _ same => SameHart.cycle same) same cycles
  · exact fun _ _ same => by rw [same.hart]
  · exact fun _ _ same cycles => same.withHart (by rw [same.hart])

/-- An action of the host gets the same answer from both machines and does the same to them. -/
theorem act (same : SameHart left right first second) (action : HostAction) :
    action.answer second = action.answer first ∧
      SameHart left right (action.apply first) (action.apply second) := by
  obtain ⟨hart, bus⟩ := first
  obtain ⟨hartToo, busToo⟩ := second
  obtain ⟨rfl, echoes⟩ := same
  cases action with
  | attach range device =>
      unfold HostAction.answer HostAction.apply
      dsimp only
      rcases echoes.attach range device with
        ⟨refusal, here, there⟩ | ⟨number, _, _, here, there, goOn⟩
      · rw [here, there]
        exact ⟨rfl, rfl, echoes⟩
      · rw [here, there]
        exact ⟨rfl, rfl, goOn⟩
  | _ => exact ⟨rfl, rfl, echoes⟩

theorem call (same : SameHart left right first second) (call : HostCall) :
    call.answer second = call.answer first ∧
      SameHart left right (call.apply first) (call.apply second) := by
  cases call with
  | serve request =>
      cases request with
      | step cycles => exact ⟨rfl, same.run cycles⟩
      | act action => exact same.act action
  | load address width =>
      obtain ⟨value, after⟩ := same.bus.load address width
      exact ⟨congrArg HostAnswer.word value, same.withBus after⟩
  | store address value width => exact ⟨rfl, same.withBus (same.bus.store ..)⟩
  | readRegion region offset width =>
      obtain ⟨value, after⟩ := same.bus.read region offset width
      exact ⟨congrArg HostAnswer.word value, same.withBus after⟩
  | writeRegion region offset value width => exact ⟨rfl, same.withBus (same.bus.write ..)⟩
  | markDirty region offset => exact ⟨rfl, same.withBus (same.bus.markDirty ..)⟩
  | findRegion address => exact ⟨congrArg HostAnswer.region (same.bus.findRegion address), same⟩
  | writeBytes address bytes => exact ⟨rfl, same.withBus (same.bus.writeBytes ..)⟩
  | readBytes address count =>
      obtain ⟨bytes, after⟩ := same.bus.readBytes address count
      exact ⟨congrArg HostAnswer.bytes bytes, same.withBus after⟩
  | modifyDevice number change =>
      exact ⟨rfl, same.withBus (same.bus.change (·.modify number change))⟩
  | readCsr | checkCsr =>
      refine ⟨?_, same⟩
      unfold HostCall.answer
      rw [same.hart]
  | setX | setPc | setClock => exact ⟨rfl, same.withHart (by rw [same.hart])⟩

theorem session (same : SameHart left right first second) (calls : List HostCall) :
    (session calls second).1 = (session calls first).1 ∧
      SameHart left right (session calls first).2 (session calls second).2 := by
  induction calls generalizing first second with
  | nil => exact ⟨rfl, same⟩
  | cons call rest ih =>
      obtain ⟨answer, after⟩ := same.call call
      obtain ⟨answers, last⟩ := ih after
      have both : call.answer second :: (Machine.session rest (call.apply second)).1 =
          call.answer first :: (Machine.session rest (call.apply first)).1 := by
        rw [answer, answers]
      exact ⟨both, last⟩

end SameHart

/-- A snapshot is complete: a machine with the same configuration and clock, whose bus has the same
contents, accepts it and has it for its own snapshot then; and from there on every sequence of calls
gets the same answers from it, and leads to the same hart and the same use of the bus, as with the
machine that the snapshot was taken of, its caches emptied. -/
theorem snapshot_complete {original copy : Machine}
    (config : copy.hart.config = original.hart.config)
    (clock : copy.hart.clock = original.hart.clock)
    (bus : original.bus.SameContents copy.bus) :
    ∃ restored, copy.hart.restore original.hart.snapshot = .ok restored ∧
      restored.value.snapshot = original.hart.snapshot ∧
      ∀ calls : List HostCall,
        let here := session calls { original with hart := original.hart.flush.value }
        let there := session calls { copy with hart := restored.value }
        there.1 = here.1 ∧ there.2.hart = here.2.hart ∧
          here.2.bus.Echoes original.bus.accesses copy.bus.accesses there.2.bus := by
  refine ⟨_, Hart.restore_snapshot config clock, rfl, fun calls => ?_⟩
  have same : SameHart original.bus.accesses copy.bus.accesses
      { original with hart := original.hart.flush.value }
      { copy with hart := original.hart.flush.value } := ⟨rfl, bus.echoes⟩
  obtain ⟨answers, last⟩ := same.session calls
  exact ⟨answers, last.hart, last.bus⟩

/-- A supervisor about to call the level above. -/
def callingMachine : Machine where
  hart := { Hart.initial ⟨0, 0⟩ with privilege := .supervisor }
  bus := .allMemory [0x73, 0, 0, 0]

/-- A machine after a reset with the same memory, whose bus was used before. -/
def freshMachine : Machine where
  hart := Hart.initial ⟨0, 0⟩
  bus := { callingMachine.bus with accesses := [⟨0, .read, 0, .word, 0⟩] }

/-- The fresh machine takes over the call of the supervisor, and its handler finds the level. -/
theorem freshMachine_resumes :
    ∃ restored, freshMachine.hart.restore callingMachine.hart.snapshot = .ok restored ∧
      (session [.serve (.step 2), .readCsr 0x342, .readCsr 0x300]
        { freshMachine with hart := restored.value }).1 = [.done, .word 9, .word 0x800] := by
  obtain ⟨restored, accepted, -, complete⟩ :=
    @snapshot_complete callingMachine freshMachine rfl rfl ⟨rfl, rfl⟩
  obtain ⟨answers, -⟩ := complete [.serve (.step 2), .readCsr 0x342, .readCsr 0x300]
  exact ⟨restored, accepted, answers.trans (by decide +kernel)⟩

end Machine

end Rv32
