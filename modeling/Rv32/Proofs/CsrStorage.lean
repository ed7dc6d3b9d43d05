import Rv32.Proofs.LegalStatus
import Rv32.Proofs.FlushingRun

/-!
# What writes to control and status registers share

Some registers share storage. The windows of S-mode show fields of `mstatus`, and those bits of `mie`
and `mip` that `mideleg` names; four registers show each half of the cycle counter, and the time
does so as well if the hart has no clock. `Csr.sharesStorage` lists them.

A write is seen in no register that does not share storage with the one written
(`Hart.readCsr_writeCsr_of_apart`), and through a window of S-mode it keeps what the window does not
show. `Hart.WritesOnly` adds what a write leaves of the hart besides.
-/

namespace Rv32

namespace Csr

/-- The registers that show the lower half of the cycle counter always. -/
def lowCycles : List Csr := [mcycle, minstret, cycle, instret]

/-- The registers that show the upper half of the cycle counter always. -/
def highCycles : List Csr := [mcycleh, minstreth, cycleh, instreth]

/-- The registers that share storage with each other, in groups. The time is that of the cycle
counter if there is no clock. -/
def sharing (cyclesAsTime : Bool) : List (List Csr) :=
  [[mstatus, sstatus], [mie, sie], [mip, sip], [mideleg, sie], [mideleg, sip], lowCycles,
    highCycles] ++ if cyclesAsTime then [time :: lowCycles, timeh :: highCycles] else []

/-- Whether two registers share storage, as each does with itself. -/
def sharesStorage (cyclesAsTime : Bool) (first second : Csr) : Bool :=
  first == second ||
    (sharing cyclesAsTime).any fun group => group.contains first && group.contains second

/-- The halves of the cycle counter share nothing. -/
theorem apart_of_halves : ∀ cyclesAsTime, ∀ high ∈ highCycles, ∀ low ∈ lowCycles,
    sharesStorage cyclesAsTime high low = false ∧ sharesStorage cyclesAsTime low high = false := by
  decide

end Csr

namespace Status

/-- A write through the window of S-mode keeps the bits that the window does not show. -/
theorem toWord_write_supervisorMask (status : Status) (value : Word) :
    (status.write value supervisorMask).toWord &&& ~~~supervisorMask =
      status.toWord &&& ~~~supervisorMask := by
  have places : ∀ bit < 32, supervisorMask.getLsbD bit = false →
      plainBits.getLsbD bit = true ∨ bit = 11 ∨ bit = 12 ∨ machineMask.getLsbD bit = false := by
    decide
  have written := status.written_write value supervisorMask
  have level : (status.write value supervisorMask).toWord.extractLsb' 11 2 =
      status.toWord.extractLsb' 11 2 := by
    rw [extract_mpp, extract_mpp, (status.write_supervisorMask value).2.2.1]
  obtain ⟨low, high⟩ := Word.bits_of_extract level
  refine Word.and_not_eq_iff.2 fun bit inside clear => ?_
  rcases places bit inside clear with plain | rfl | rfl | other
  · rw [written.plain bit plain, clear]
    rfl
  · exact low
  · exact high
  · exact Word.and_not_eq_iff.1 written.others bit inside other

end Status

namespace Hart

variable {hart : Hart} {written other : Csr}

/-! ## The cycle counter -/

theorem low_of_writeHigh (cycles : DoubleWord) (value : Word) :
    (value ++ (cycles.setWidth 32 : Word) : DoubleWord).setWidth 32 =
      (cycles.setWidth 32 : Word) :=
  BitVec.setWidth_append_eq_right

theorem high_of_writeLow (cycles : DoubleWord) (value : Word) :
    ((cycles.extractLsb' 32 32 : Word) ++ value : DoubleWord).extractLsb' 32 32 =
      (cycles.extractLsb' 32 32 : Word) :=
  BitVec.extractLsb'_append_eq_left

/-- A half of the time is one of the cycle counter only if there is no clock. -/
theorem readCsr_time_of_cycles (hart : Hart) {cycles : DoubleWord}
    (same : hart.clock = none → cycles.setWidth 32 = (hart.mcycle.setWidth 32 : Word)) :
    { hart with mcycle := cycles }.readCsr .time = hart.readCsr .time := by
  unfold readCsr time
  cases clock : hart.clock with
  | none => exact same clock
  | some now => rfl

theorem readCsr_timeh_of_cycles (hart : Hart) {cycles : DoubleWord}
    (same : hart.clock = none →
      cycles.extractLsb' 32 32 = (hart.mcycle.extractLsb' 32 32 : Word)) :
    { hart with mcycle := cycles }.readCsr .timeh = hart.readCsr .timeh := by
  unfold readCsr time
  cases clock : hart.clock with
  | none => exact same clock
  | some now => rfl

/-! ## Single writes -/

/-- A write is not seen in registers that do not share storage with the one written. -/
theorem readCsr_writeCsr_of_apart
    (apart : Csr.sharesStorage hart.clock.isNone written other = false) (value : Word) :
    (hart.writeCsr written value).value.readCsr other = hart.readCsr other := by
  cases written with
  | sstatus | mstatus =>
      obtain ⟨tlb, after⟩ := hart.value_writeStatus value _
      refine (congrArg (readCsr · other) after).trans ?_
      cases other with
      | sstatus | mstatus => cases apart
      | _ => rfl
  | satp =>
      obtain ⟨tlb, after⟩ := hart.value_writeSatp value
      refine (congrArg (readCsr · other) after).trans ?_
      cases other with
      | satp => cases apart
      | _ => rfl
  | mcycle | minstret =>
      cases other with
      | mcycle | minstret | cycle | instret => cases apart
      | mcycleh | minstreth | cycleh | instreth => exact high_of_writeLow _ _
      | time =>
          refine hart.readCsr_time_of_cycles fun none => ?_
          rw [none] at apart
          cases apart
      | timeh => exact hart.readCsr_timeh_of_cycles fun _ => high_of_writeLow _ _
      | _ => rfl
  | mcycleh | minstreth =>
      cases other with
      | mcycleh | minstreth | cycleh | instreth => cases apart
      | mcycle | minstret | cycle | instret => exact low_of_writeHigh _ _
      | time => exact hart.readCsr_time_of_cycles fun _ => low_of_writeHigh _ _
      | timeh =>
          refine hart.readCsr_timeh_of_cycles fun none => ?_
          rw [none] at apart
          cases apart
      | _ => rfl
  -- Each of the rest writes one field, which only the registers of its groups show.
  | _ => cases other <;> first | rfl | cases apart

/-- What a write of `written` leaves of a hart: the registers that do not share its storage, what a
window does not show of the register behind it, the other half of the counter, and everything that
is no register of this kind, except that it empties the caches or leaves them as they are. -/
structure WritesOnly (written : Csr) (before after : Hart) : Prop where
  others : ∀ other, Csr.sharesStorage before.clock.isNone written other = false →
    after.readCsr other = before.readCsr other
  sstatus : written = .sstatus → after.readCsr .mstatus &&& ~~~Status.supervisorMask =
    before.readCsr .mstatus &&& ~~~Status.supervisorMask
  sie : written = .sie → after.readCsr .mie &&& ~~~before.readCsr .mideleg =
    before.readCsr .mie &&& ~~~before.readCsr .mideleg
  sip : written = .sip → after.readCsr .mip &&& ~~~before.readCsr .mideleg =
    before.readCsr .mip &&& ~~~before.readCsr .mideleg
  low : written ∈ Csr.highCycles →
    (after.mcycle.setWidth 32 : Word) = before.mcycle.setWidth 32
  high : written ∈ Csr.lowCycles →
    (after.mcycle.extractLsb' 32 32 : Word) = before.mcycle.extractLsb' 32 32
  caches : before.Refreshed after
  registers : after.registers = before.registers
  privilege : after.privilege = before.privilege
  halted : after.halted = before.halted
  reservation : after.reservation = before.reservation
  config : after.config = before.config
  clock : after.clock = before.clock

/-- A write through a window on the status register keeps what the window does not show. -/
theorem mstatus_writeCsr_sstatus (hart : Hart) (value : Word) :
    (hart.writeCsr .sstatus value).value.readCsr .mstatus &&& ~~~Status.supervisorMask =
      hart.readCsr .mstatus &&& ~~~Status.supervisorMask := by
  obtain ⟨tlb, after⟩ := hart.value_writeStatus value Status.supervisorMask
  calc (hart.writeStatus value Status.supervisorMask).value.status.toWord &&&
        ~~~Status.supervisorMask
    _ = (hart.status.write value Status.supervisorMask).toWord &&& ~~~Status.supervisorMask := by
      rw [after]
    _ = hart.status.toWord &&& ~~~Status.supervisorMask :=
      hart.status.toWord_write_supervisorMask value

theorem writesOnly_writeCsr (hart : Hart) (written : Csr) (value : Word) :
    hart.WritesOnly written (hart.writeCsr written value).value := by
  obtain ⟨_, _, _, _, _, _, _, _, frame⟩ := hart.writeCsr_frame written value
  have others : ∀ other, Csr.sharesStorage hart.clock.isNone written other = false →
      (hart.writeCsr written value).value.readCsr other = hart.readCsr other :=
    fun _ apart => readCsr_writeCsr_of_apart apart value
  exact {
    others := others
    sstatus := by
      rintro rfl
      exact hart.mstatus_writeCsr_sstatus value
    sie := by
      rintro rfl
      exact Warl.merge_outside ..
    sip := by
      rintro rfl
      exact Word.select_outside ..
    low := fun half => others .mcycle (Csr.apart_of_halves _ _ half .mcycle (by decide)).1
    high := fun half => others .mcycleh (Csr.apart_of_halves _ .mcycleh (by decide) _ half).2
    caches := hart.refreshed_writeCsr written value
    registers := by rw [frame]
    privilege := by rw [frame]
    halted := by rw [frame]
    reservation := by rw [frame]
    config := by rw [frame]
    clock := by rw [frame] }

end Hart

/-- A write to an implemented register reaches its own storage only, and not the bus. -/
theorem Machine.writeCsr_writesOnly (machine : Machine) (written : Csr) (value : Word) :
    let after := (HostAction.writeCsr written.address value).apply machine
    machine.hart.WritesOnly written after.hart ∧ after.bus = machine.bus := by
  have after : (HostAction.writeCsr written.address value).apply machine =
      { machine with hart := (machine.hart.writeCsr written value).value } := by
    unfold HostAction.apply Operation.apply Hart.writeAddress
    dsimp only
    rw [Csr.ofAddress?_address]
    rfl
  rw [after]
  exact ⟨machine.hart.writesOnly_writeCsr written value, rfl⟩

end Rv32
