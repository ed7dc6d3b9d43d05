import Rv32.Hart.Csr
import Rv32.Hart.Trap

/-!
# What programs below M-mode can write

A write of selected bits leaves the other bits alone (`Word.getLsbD_select`), and the contents of
the status register determine its fields (`Status.ofFields_toWord`). So a write through the window
of S-mode reaches none of the fields of M-mode.

`Hart.machineState` gathers what belongs to M-mode. Below M-mode only registers of S-mode can be
written, by S-mode, and no such write changes the `machineState`.
-/

namespace Rv32

namespace Word

theorem getLsbD_select (word value selected : Word) (bit : Nat) :
    (word &&& ~~~selected ||| value &&& selected).getLsbD bit =
      if selected.getLsbD bit then value.getLsbD bit else word.getLsbD bit := by
  simp only [BitVec.getLsbD_or, BitVec.getLsbD_and, BitVec.getLsbD_not]
  by_cases inside : bit < 32
  · cases selected.getLsbD bit <;> simp [inside]
  · simp [inside, BitVec.getLsbD_of_ge _ _ (Nat.le_of_not_lt inside)]

/-- A write of selected bits reaches nothing beyond a wider selection. -/
theorem select_beyond (word value : Word) {selected wide : Word}
    (within : selected &&& wide = selected) :
    (word &&& ~~~selected ||| value &&& selected) &&& ~~~wide = word &&& ~~~wide := by
  rw [← within]
  ext bit inside
  simp only [BitVec.getElem_and, BitVec.getElem_or, BitVec.getElem_not]
  cases selected[bit] <;> cases wide[bit] <;> simp

theorem select_outside (word value selected : Word) :
    (word &&& ~~~selected ||| value &&& selected) &&& ~~~selected = word &&& ~~~selected :=
  select_beyond word value BitVec.and_self

end Word

theorem Warl.legal_of_getLsbD {legal : Word} (register : Warl legal) {bit : Nat}
    (set : register.bits.getLsbD bit = true) : legal.getLsbD bit = true := by
  rw [← register.bits_legal, BitVec.getLsbD_and, Bool.and_eq_true] at set
  exact set.2

theorem Warl.merge_outside {legal : Word} (register : Warl legal) (value selected : Word) :
    (register.merge value selected).bits &&& ~~~selected = register.bits &&& ~~~selected :=
  calc (register.merge value selected).bits &&& ~~~selected
    _ = (register.bits &&& ~~~selected ||| value &&& selected) &&& legal &&& ~~~selected := rfl
    _ = (register.bits &&& ~~~selected ||| value &&& selected) &&& ~~~selected &&& legal := by
      rw [BitVec.and_assoc, BitVec.and_comm legal, ← BitVec.and_assoc]
    _ = register.bits &&& legal &&& ~~~selected := by
      rw [Word.select_outside, BitVec.and_assoc, BitVec.and_comm _ legal, ← BitVec.and_assoc]
    _ = register.bits &&& ~~~selected := by rw [register.bits_legal]

/-! ## The status register -/

namespace Status

theorem extract_mpp (status : Status) : status.toWord.extractLsb' 11 2 = status.mpp.code := by
  ext bit inside
  rw [BitVec.getElem_extractLsb']
  unfold toWord
  simp only [BitVec.getLsbD_append]
  obtain rfl | rfl : bit = 0 ∨ bit = 1 := by omega
  · simp
  · simp

theorem extract_fs (status : Status) : status.toWord.extractLsb' 13 2 = status.fs.toBits := by
  ext bit inside
  rw [BitVec.getElem_extractLsb']
  unfold toWord
  simp only [BitVec.getLsbD_append]
  obtain rfl | rfl : bit = 0 ∨ bit = 1 := by omega
  · simp
  · simp

/-- The contents of the status register spell its fields. -/
theorem ofFields_toWord (status : Status) (mpp : Privilege) :
    ofFields status.toWord mpp = status := by
  unfold ofFields
  rw [extract_mpp, extract_fs, Privilege.ofCode_code, ExtensionStatus.ofBits_toBits]
  unfold toWord
  simp only [BitVec.getLsbD_append]
  simp

/-- A write through the window of S-mode keeps the fields of M-mode. -/
theorem write_supervisorMask (status : Status) (value : Word) :
    let after := status.write value supervisorMask
    after.mie = status.mie ∧ after.mpie = status.mpie ∧ after.mpp = status.mpp ∧
      after.mprv = status.mprv ∧ after.tvm = status.tvm ∧ after.tw = status.tw ∧
      after.tsr = status.tsr := by
  have same := status.ofFields_toWord status.mpp
  have outside : ∀ bit, supervisorMask.getLsbD bit = false →
      (status.toWord &&& ~~~supervisorMask ||| value &&& supervisorMask).getLsbD bit =
        status.toWord.getLsbD bit := by
    intro bit clear
    rw [Word.getLsbD_select, clear]
    rfl
  have mie := (outside 3 rfl).trans (congrArg Status.mie same)
  have mpie := (outside 7 rfl).trans (congrArg Status.mpie same)
  have mprv := (outside 17 rfl).trans (congrArg Status.mprv same)
  have tvm := (outside 20 rfl).trans (congrArg Status.tvm same)
  have tw := (outside 21 rfl).trans (congrArg Status.tw same)
  have tsr := (outside 22 rfl).trans (congrArg Status.tsr same)
  have mpp :
      (status.toWord &&& ~~~supervisorMask ||| value &&& supervisorMask).extractLsb' 11 2 =
        status.mpp.code := by
    rw [← extract_mpp]
    ext bit inside
    rw [BitVec.getElem_extractLsb', BitVec.getElem_extractLsb']
    refine outside _ ?_
    obtain rfl | rfl : bit = 0 ∨ bit = 1 := by omega
    · rfl
    · rfl
  refine ⟨mie, mpie, ?_, mprv, tvm, tw, tsr⟩
  unfold write ofFields
  rw [mpp, Privilege.ofCode_code]

end Status

/-! ## Which registers a program reaches -/

/-- The registers of S-mode. -/
def Csr.isSupervisor (register : Csr) : Bool :=
  register.address.requiredLevel = Privilege.supervisor.code

theorem Csr.isSupervisor_of_checkAccess {register : Csr} {level : Privilege} {granted : Unit}
    (access : register.address.checkAccess level true = .ok granted) (below : level ≠ .machine) :
    level = .supervisor ∧ register.isSupervisor = true := by
  cases level with
  | user => cases register <;> cases access
  | supervisor => cases register <;> first | exact ⟨rfl, rfl⟩ | cases access
  | machine => exact absurd rfl below

/-- Below M-mode, only S-mode can write registers, and only its own; the translation register may
be closed even to it. -/
theorem Hart.writable_of_checkCsr {hart : Hart} {address : CsrAddress} {register : Csr}
    (allowed : hart.checkCsr address true = .ok ()) (found : Csr.ofAddress? address = some register)
    (below : hart.privilege ≠ .machine) :
    hart.privilege = .supervisor ∧ register.isSupervisor = true ∧
      (register = .satp → hart.status.tvm = false) := by
  obtain rfl := Csr.address_of_ofAddress? found
  unfold Hart.checkCsr at allowed
  rw [found] at allowed
  rcases access : register.address.checkAccess hart.privilege true with refused | granted
  · rw [access] at allowed
    cases allowed
  · rw [access] at allowed
    obtain ⟨level, supervisor⟩ := Csr.isSupervisor_of_checkAccess access below
    refine ⟨level, supervisor, ?_⟩
    rintro rfl
    rw [level] at allowed
    cases open' : hart.status.tvm with
    | false => rfl
    | true =>
        rw [open'] at allowed
        cases allowed

/-! ## What belongs to M-mode -/

/-- The state that only M-mode controls: where and how its traps are handled, what they saved, and
the bits of the interrupt registers that it has not delegated. -/
structure MachineState where
  mtvec : TrapVector
  medeleg : Warl delegableExceptions
  mideleg : Warl delegableInterrupts
  mcounteren : CounterEnable
  trap : TrapRecord
  mie : Bool
  mpie : Bool
  mpp : Privilege
  tvm : Bool
  tw : Bool
  tsr : Bool
  enabled : Word
  pending : Word
deriving DecidableEq

namespace Hart

/-- What belongs to M-mode in a hart. -/
def machineState (hart : Hart) : MachineState where
  mtvec := hart.setup.mtvec
  medeleg := hart.setup.medeleg
  mideleg := hart.interrupts.mideleg
  mcounteren := hart.setup.mcounteren
  trap := hart.machineTrap
  mie := hart.status.mie
  mpie := hart.status.mpie
  mpp := hart.status.mpp
  tvm := hart.status.tvm
  tw := hart.status.tw
  tsr := hart.status.tsr
  enabled := hart.interrupts.mie.bits &&& ~~~hart.interrupts.mideleg.bits
  pending := hart.interrupts.mip &&& ~~~hart.interrupts.mideleg.bits

/-- A write to the status register may cost the cached translations. -/
theorem value_writeStatus (hart : Hart) (value selected : Word) :
    ∃ tlb, (hart.writeStatus value selected).value =
      { hart with status := hart.status.write value selected, tlb := tlb } := by
  unfold writeStatus
  dsimp only
  split
  · exact ⟨.empty, rfl⟩
  · exact ⟨hart.tlb, rfl⟩

/-- A write to the translation register may cost the cached translations. -/
theorem value_writeSatp (hart : Hart) (value : Word) :
    ∃ tlb, (hart.writeSatp value).value = { hart with satp := .ofWord _ value, tlb := tlb } := by
  unfold writeSatp
  dsimp only
  split
  · rename_i same
    rw [same]
    exact ⟨hart.tlb, rfl⟩
  · exact ⟨.empty, rfl⟩

/-- A write to a control and status register reaches nothing that a hart has besides, except for the
caches. -/
theorem writeCsr_frame (hart : Hart) (register : Csr) (value : Word) :
    ∃ status interrupts setup machineTrap supervisorTrap satp mcycle tlb,
      (hart.writeCsr register value).value =
        { hart with
          status := status, interrupts := interrupts, setup := setup, machineTrap := machineTrap
          supervisorTrap := supervisorTrap, satp := satp, mcycle := mcycle, tlb := tlb } := by
  cases register with
  | sstatus | mstatus =>
      obtain ⟨tlb, written⟩ := hart.value_writeStatus value _
      exact ⟨_, _, _, _, _, _, _, _, written⟩
  | satp =>
      obtain ⟨tlb, written⟩ := hart.value_writeSatp value
      exact ⟨_, _, _, _, _, _, _, _, written⟩
  | _ => exact ⟨_, _, _, _, _, _, _, _, rfl⟩

theorem pc_writeCsr (hart : Hart) (register : Csr) (value : Word) :
    (hart.writeCsr register value).value.pc = hart.pc := by
  obtain ⟨_, _, _, _, _, _, _, _, written⟩ := hart.writeCsr_frame register value
  rw [written]
  rfl

/-- No write to a register changes the level. -/
theorem privilege_writeCsr (hart : Hart) (register : Csr) (value : Word) :
    (hart.writeCsr register value).value.privilege = hart.privilege := by
  obtain ⟨_, _, _, _, _, _, _, _, written⟩ := hart.writeCsr_frame register value
  rw [written]

/-- From one hart to the other what belongs to M-mode stayed, the lending of a level did not begin,
and the translation register changed only if S-mode may change it. -/
structure Confined (before after : Hart) : Prop where
  machineState : after.machineState = before.machineState
  mprv : after.status.mprv = before.status.mprv ∨ after.status.mprv = false
  mcycle : after.mcycle = before.mcycle
  satp : before.privilege = .user ∨ before.status.tvm = true → after.satp = before.satp

/-- A write to a register of S-mode keeps what belongs to M-mode. -/
theorem confined_writeCsr {hart : Hart} {register : Csr} (level : hart.privilege = .supervisor)
    (supervisor : register.isSupervisor = true)
    (unlocked : register = .satp → hart.status.tvm = false) (value : Word) :
    hart.Confined (hart.writeCsr register value).value := by
  cases register with
  | sstatus =>
      obtain ⟨tlb, written⟩ := hart.value_writeStatus value Status.supervisorMask
      obtain ⟨mie, mpie, mpp, mprv, tvm, tw, tsr⟩ := hart.status.write_supervisorMask value
      change hart.Confined (hart.writeStatus value Status.supervisorMask).value
      rw [written]
      refine ⟨?_, .inl mprv, rfl, fun _ => rfl⟩
      unfold machineState
      rw [mie, mpie, mpp, tvm, tw, tsr]
  | sie =>
      have enabled : (hart.interrupts.writeSie value).mie.bits &&& ~~~hart.interrupts.mideleg.bits =
          hart.interrupts.mie.bits &&& ~~~hart.interrupts.mideleg.bits := Warl.merge_outside ..
      refine ⟨?_, .inl rfl, rfl, fun _ => rfl⟩
      exact congrArg (fun enabled => { hart.machineState with enabled := enabled }) enabled
  | sip =>
      have pending : (hart.interrupts.writeSip value).mip &&& ~~~hart.interrupts.mideleg.bits =
          hart.interrupts.mip &&& ~~~hart.interrupts.mideleg.bits := Word.select_outside ..
      refine ⟨?_, .inl rfl, rfl, fun _ => rfl⟩
      exact congrArg (fun pending => { hart.machineState with pending := pending }) pending
  | satp =>
      obtain ⟨tlb, written⟩ := hart.value_writeSatp value
      change hart.Confined (hart.writeSatp value).value
      rw [written]
      refine ⟨rfl, .inl rfl, rfl, ?_⟩
      rintro (user | locked)
      · rw [level] at user
        cases user
      · rw [unlocked rfl] at locked
        cases locked
  | stvec | scounteren | sscratch | sepc | scause | stval =>
      exact ⟨rfl, .inl rfl, rfl, fun _ => rfl⟩
  | _ => cases supervisor

end Hart
end Rv32
