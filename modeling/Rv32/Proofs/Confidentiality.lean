import Rv32.Proofs.CsrAccess
import Rv32.Proofs.Lockstep
import Rv32.Proofs.Turns

/-!
# Machine state is invisible below M-mode

`Hart.Secret` is the state that no program below M-mode can tell anything about: the number of the
hart, where M-mode handles its traps and what they left there, and the fields of the status register
that say where M-mode returns to. `Hart.Alike` relates harts below M-mode that differ in nothing
else. Each instruction does the same to both (`Hart.tracksSystem_alike`), and so does a trap into
S-mode; a trap into M-mode is entered by both or by neither.

`Machine.hidden_below_machine` follows two machines turn by turn until both enter M-mode.
-/

namespace Rv32

/-! ## The status register below M-mode -/

namespace Status

/-- The fields of M-mode are not seen through the window of S-mode. -/
theorem supervisorWord_machineFields (status : Status) (mie mpie : Bool) (mpp : Privilege) :
    { status with mie := mie, mpie := mpie, mpp := mpp }.supervisorWord =
      status.supervisorWord := by
  have visible : ∀ bit < 32, supervisorMask.getLsbD bit = true →
      bit ∈ [1, 5, 8, 13, 14, 15, 16, 18, 19, 31] := by decide
  refine BitVec.eq_of_getLsbD_eq fun bit inside => ?_
  unfold supervisorWord
  rw [BitVec.getLsbD_and, BitVec.getLsbD_and]
  cases selected : supervisorMask.getLsbD bit with
  | false => rw [Bool.and_false, Bool.and_false]
  | true =>
      have isVisible := visible bit inside selected
      simp only [List.mem_cons, List.not_mem_nil, or_false] at isVisible
      unfold toWord sd xs
      simp only [BitVec.getLsbD_append]
      rcases isVisible with rfl | rfl | rfl | rfl | rfl | rfl | rfl | rfl | rfl | rfl <;> simp

/-- A write through the window of S-mode takes its fields from the value alone. -/
theorem write_supervisorMask_eq (status : Status) (value : Word) :
    status.write value supervisorMask =
      { status with
        sie := value.getLsbD 1
        spie := value.getLsbD 5
        spp := value.getLsbD 8
        fs := ExtensionStatus.ofBits (value.extractLsb' 13 2)
        sum := value.getLsbD 18
        mxr := value.getLsbD 19 } := by
  obtain ⟨mie, mpie, mpp, mprv, tvm, tw, tsr⟩ := status.write_supervisorMask value
  have inside : ∀ bit, supervisorMask.getLsbD bit = true →
      (status.toWord &&& ~~~supervisorMask ||| value &&& supervisorMask).getLsbD bit =
        value.getLsbD bit := by
    intro bit selected
    rw [Word.getLsbD_select, if_pos selected]
  have fs : (status.toWord &&& ~~~supervisorMask ||| value &&& supervisorMask).extractLsb' 13 2 =
      value.extractLsb' 13 2 := by
    ext bit low
    rw [BitVec.getElem_extractLsb', BitVec.getElem_extractLsb']
    refine inside _ ?_
    obtain rfl | rfl : bit = 0 ∨ bit = 1 := by omega
    · rfl
    · rfl
  have sie := inside 1 rfl
  have spie := inside 5 rfl
  have spp := inside 8 rfl
  have sum := inside 18 rfl
  have mxr := inside 19 rfl
  unfold write ofFields at mie mpie mpp mprv tvm tw tsr ⊢
  dsimp only at mie mpie mpp mprv tvm tw tsr
  rw [sie, mie, spie, mpie, spp, mpp, fs, mprv, sum, mxr, tvm, tw, tsr]

end Status

/-! ## Registers below M-mode -/

/-- The registers that can be seen below M-mode. -/
def Csr.isVisible (register : Csr) : Bool :=
  register.address.requiredLevel ≠ Privilege.machine.code

/-- A program below M-mode reaches visible registers only. -/
theorem Hart.isVisible_of_checkCsr {hart : Hart} {address : CsrAddress} {register : Csr}
    {writes : Bool} (below : hart.privilege ≠ .machine)
    (allowed : hart.checkCsr address writes = .ok ())
    (found : Csr.ofAddress? address = some register) : register.isVisible = true := by
  obtain rfl := Csr.address_of_ofAddress? found
  refine decide_eq_true fun hidden => ?_
  have lower : hart.privilege.code < register.address.requiredLevel := by
    rw [hidden]
    cases level : hart.privilege with
    | user => decide
    | supervisor => decide
    | machine => exact absurd level below
  have refused : ∃ refusal,
      register.address.checkAccess hart.privilege writes = .error refusal := by
    unfold CsrAddress.checkAccess
    rw [if_pos lower]
    split
    · exact ⟨_, rfl⟩
    · split <;> exact ⟨_, rfl⟩
  obtain ⟨refusal, isRefused⟩ := refused
  unfold Hart.checkCsr at allowed
  rw [isRefused] at allowed
  cases allowed

namespace Hart

/-- What a hart keeps from programs below M-mode. -/
structure Secret where
  hartId : Word
  mtvec : TrapVector
  trap : TrapRecord
  mie : Bool
  mpie : Bool
  mpp : Privilege

/-- The hart with another secret. -/
def withSecret (hart : Hart) (secret : Secret) : Hart :=
  { hart with
    config := { hart.config with hartId := secret.hartId }
    setup := { hart.setup with mtvec := secret.mtvec }
    machineTrap := secret.trap
    status := { hart.status with mie := secret.mie, mpie := secret.mpie, mpp := secret.mpp } }

/-- The harts run below M-mode, in their own name, and differ at most in what they keep secret. -/
structure Alike (first second : Hart) : Prop where
  below : first.privilege ≠ .machine
  unlent : first.status.mprv = false
  secret : ∃ secret, second = first.withSecret secret

/-- A write to the status register costs the cached translations if it changes how addresses are
translated. -/
theorem value_writeStatus_eq (hart : Hart) (value selected : Word) :
    (hart.writeStatus value selected).value =
      { hart with
        status := hart.status.write value selected
        tlb :=
          if hart.status.translationDiffers (hart.status.write value selected) then .empty
          else hart.tlb } := by
  unfold writeStatus
  dsimp only
  split <;> rfl

namespace Alike

variable {first second : Hart}

theorem readCsr (alike : first.Alike second) {register : Csr}
    (visible : register.isVisible = true) :
    second.readCsr register = first.readCsr register := by
  obtain ⟨below, unlent, secret, rfl⟩ := alike
  cases register with
  | sstatus => exact Status.supervisorWord_machineFields ..
  | mstatus | mtvec | mscratch | mepc | mcause | mtval | mhartid => cases visible
  | _ => rfl

theorem writeStatus (alike : first.Alike second) (value : Word) :
    (first.writeStatus value Status.supervisorMask).value.Alike
      (second.writeStatus value Status.supervisorMask).value := by
  obtain ⟨below, unlent, secret, rfl⟩ := alike
  have flushes : (first.withSecret secret).status.translationDiffers
        ((first.withSecret secret).status.write value Status.supervisorMask) =
      first.status.translationDiffers (first.status.write value Status.supervisorMask) := by
    rw [Status.write_supervisorMask_eq, Status.write_supervisorMask_eq]
    simp [Status.translationDiffers, withSecret]
  rw [value_writeStatus_eq, value_writeStatus_eq, flushes, Status.write_supervisorMask_eq,
    Status.write_supervisorMask_eq]
  exact ⟨below, unlent, secret, rfl⟩

theorem writeSatp (alike : first.Alike second) (value : Word) :
    (first.writeSatp value).value.Alike (second.writeSatp value).value := by
  obtain ⟨below, unlent, secret, rfl⟩ := alike
  unfold Hart.writeSatp
  by_cases same : (.ofWord _ value : Satp) = first.satp
  · have sameToo : (.ofWord _ value : Satp) = (first.withSecret secret).satp := same
    dsimp only
    rw [if_pos same, if_pos sameToo]
    exact ⟨below, unlent, secret, rfl⟩
  · have differsToo : (.ofWord _ value : Satp) ≠ (first.withSecret secret).satp := same
    dsimp only
    rw [if_neg same, if_neg differsToo]
    exact ⟨below, unlent, secret, rfl⟩

/-- Writes of visible registers do the same to both, as they change nothing that is secret. -/
theorem writeCsr (alike : first.Alike second) {register : Csr} (visible : register.isVisible = true)
    (value : Word) :
    (first.writeCsr register value).value.Alike (second.writeCsr register value).value := by
  cases register with
  | sstatus => exact alike.writeStatus value
  | satp => exact alike.writeSatp value
  | mstatus | mtvec | mscratch | mepc | mcause | mtval | mhartid => cases visible
  | _ =>
      obtain ⟨below, unlent, secret, rfl⟩ := alike
      exact ⟨below, unlent, secret, rfl⟩

end Alike

/-- While no level is lent, accesses are made at the level of the hart. -/
theorem effectiveLevel_of_unlent {hart : Hart} (unlent : hart.status.mprv = false)
    {kind : AccessKind} : Machine.effectiveLevel hart kind = hart.privilege := by
  unfold Machine.effectiveLevel
  rw [unlent]
  cases kind <;> rfl

/-- Below M-mode, nothing that an instruction looks at is secret. -/
theorem tracksSystem_alike : TracksSystem Alike (fun register => register.isVisible = true) where
  registers := by rintro _ _ ⟨-, -, _, rfl⟩; rfl
  tlb := by rintro _ _ ⟨-, -, _, rfl⟩; rfl
  reservation := by rintro _ _ ⟨-, -, _, rfl⟩; rfl
  context := by
    rintro first _ ⟨-, unlent, secret, rfl⟩ kind
    have unlentToo : (first.withSecret secret).status.mprv = false := unlent
    unfold translationContext
    rw [effectiveLevel_of_unlent unlent, effectiveLevel_of_unlent unlentToo]
    rfl
  withRegisters := by
    rintro _ _ ⟨below, unlent, secret, rfl⟩ _
    exact ⟨below, unlent, secret, rfl⟩
  withTlb := by
    rintro _ _ ⟨below, unlent, secret, rfl⟩ _
    exact ⟨below, unlent, secret, rfl⟩
  withReservation := by
    rintro _ _ ⟨below, unlent, secret, rfl⟩ _
    exact ⟨below, unlent, secret, rfl⟩
  privilege := by rintro _ _ ⟨-, -, _, rfl⟩; rfl
  locks := by rintro _ _ ⟨-, -, _, rfl⟩; exact ⟨rfl, rfl, rfl⟩
  interrupts := by rintro _ _ ⟨-, -, _, rfl⟩; rfl
  checkCsr := by rintro _ _ ⟨-, -, _, rfl⟩ _ _; rfl
  reached alike _ _ _ allowed found := isVisible_of_checkCsr alike.below allowed found
  readCsr := Alike.readCsr
  writeCsr alike _ visible value := alike.writeCsr visible value
  returnFromSupervisor := by
    rintro first _ ⟨below, unlent, secret, rfl⟩
    rw [value_returnFromSupervisor, value_returnFromSupervisor]
    exact ⟨sppLevel_ne_machine first.status, rfl, secret, rfl⟩
  returnFromMachine alike top := absurd top alike.below
  halt := by
    rintro _ _ ⟨below, unlent, secret, rfl⟩
    exact ⟨below, unlent, secret, rfl⟩

namespace Alike

variable {first second : Hart}

/-- Below M-mode interrupts are taken whatever M-mode says about its own. -/
theorem nextInterrupt (alike : first.Alike second) :
    second.nextInterrupt = first.nextInterrupt := by
  obtain ⟨below, -, secret, rfl⟩ := alike
  unfold Hart.nextInterrupt Interrupts.next
  congr 1
  funext interrupt
  unfold Interrupts.admissible Interrupts.machineEnabled Interrupts.supervisorEnabled withSecret
  dsimp only
  cases level : first.privilege with
  | user => rfl
  | supervisor => rfl
  | machine => exact absurd level below

/-- A trap is entered by both in S-mode, or by both in M-mode. -/
theorem enterTrap (alike : first.Alike second) (cause : Cause) :
    (first.enterTrap cause).value.Alike (second.enterTrap cause).value ∨
      (first.enterTrap cause).value.privilege = .machine ∧
        (second.enterTrap cause).value.privilege = .machine := by
  obtain ⟨below, unlent, secret, rfl⟩ := alike
  cases delegated : first.delegates cause with
  | true =>
      have delegatedToo : (first.withSecret secret).delegates cause = true := delegated
      rw [value_enterTrap_supervisor delegated, value_enterTrap_supervisor delegatedToo]
      exact .inl ⟨nofun, unlent, secret, rfl⟩
  | false =>
      have keptToo : (first.withSecret secret).delegates cause = false := delegated
      rw [value_enterTrap_machine delegated, value_enterTrap_machine keptToo]
      exact .inr ⟨rfl, rfl⟩

end Alike

end Hart

namespace Machine

/-! ## Turns -/

/-- The machines run below M-mode, and nothing that a program below M-mode can see tells them apart:
its registers and level, the registers of S-mode, the caches, and the bus. -/
structure Indistinguishable (left right : List DeviceAccess) (first second : Machine) : Prop where
  below : first.hart.privilege ≠ .machine
  privilege : second.hart.privilege = first.hart.privilege
  registers : second.hart.registers = first.hart.registers
  halted : second.hart.halted = first.hart.halted
  reservation : second.hart.reservation = first.hart.reservation
  mcycle : second.hart.mcycle = first.hart.mcycle
  csrs : ∀ register : Csr, register.isVisible = true →
    second.hart.readCsr register = first.hart.readCsr register
  tlb : second.hart.tlb = first.hart.tlb
  bus : first.bus.Echoes left right second.bus

/-- The machines run below M-mode and differ in secrets at most. -/
abbrev Conceals (left right : List DeviceAccess) (first second : Machine) : Prop :=
  InStep Hart.Alike left right first second

/-- The machines still conceal their secrets, or both are in M-mode. -/
def ConcealsOrEnters (left right : List DeviceAccess) (first second : Machine) : Prop :=
  Conceals left right first second ∨
    first.hart.privilege = .machine ∧ second.hart.privilege = .machine

namespace Conceals

variable {left right : List DeviceAccess} {first second : Machine}

theorem halted (conceals : Conceals left right first second) :
    second.hart.halted = first.hart.halted := by
  obtain ⟨-, -, secret, same⟩ := conceals.hart
  rw [same]
  rfl

theorem indistinguishable (conceals : Conceals left right first second) :
    Indistinguishable left right first second := by
  have mcycle : second.hart.mcycle = first.hart.mcycle := by
    obtain ⟨-, -, secret, same⟩ := conceals.hart
    rw [same]
    rfl
  exact ⟨conceals.hart.below, Hart.tracksSystem_alike.privilege conceals.hart,
    Hart.tracksSystem_alike.registers conceals.hart, conceals.halted,
    Hart.tracksSystem_alike.reservation conceals.hart, mcycle,
    fun register visible => conceals.hart.readCsr visible,
    Hart.tracksSystem_alike.tlb conceals.hart, conceals.bus⟩

theorem counted (conceals : Conceals left right first second) :
    Conceals left right first.counted second.counted := by
  obtain ⟨below, unlent, secret, same⟩ := conceals.hart
  refine conceals.withHart ⟨below, unlent, secret, ?_⟩
  rw [same]
  rfl

theorem trapped (conceals : Conceals left right first second) (cause : Cause) :
    ConcealsOrEnters left right (first.trapped cause) (second.trapped cause) := by
  rcases conceals.hart.enterTrap cause with stays | entered
  · exact .inl (conceals.withHart stays)
  · exact .inr entered

/-- A turn keeps what is secret secret, or leads into M-mode. -/
theorem turn (conceals : Conceals left right first second) :
    ConcealsOrEnters left right first.turn second.turn := by
  have same := conceals.halted
  unfold Machine.turn
  cases waits : first.hart.halted with
  | true =>
      rw [same.trans waits]
      exact .inl conceals
  | false =>
      rw [same.trans waits]
      have executes : Attempt.Agree (Conceals left right) executeNext executeNext :=
        Hart.tracksSystem_alike.executeNext
      have turned := cycle_agrees (fun _ _ conceals => conceals.hart.nextInterrupt)
        (fun _ _ conceals => conceals.counted) executes (fun _ _ conceals => .inl conceals)
        (fun _ _ conceals cause => conceals.trapped cause) conceals
      exact turned.2

/-- Turn by turn, the machines keep what is secret secret, until both enter M-mode. -/
theorem afterTurns (conceals : Conceals left right first second) (turns : Nat) :
    (∃ entered ≤ turns, (afterTurns entered first).hart.privilege = .machine ∧
        (afterTurns entered second).hart.privilege = .machine ∧
        ∀ earlier < entered, Conceals left right (afterTurns earlier first)
          (afterTurns earlier second)) ∨
      ∀ earlier ≤ turns, Conceals left right (afterTurns earlier first)
        (afterTurns earlier second) := by
  induction turns with
  | zero =>
      refine .inr fun earlier none => ?_
      obtain rfl := Nat.le_zero.1 none
      exact conceals
  | succ turns ih =>
      rcases ih with ⟨entered, few, before⟩ | before
      · exact .inl ⟨entered, Nat.le_succ_of_le few, before⟩
      · have turned := (before turns (Nat.le_refl turns)).turn
        rw [← afterTurns_succ, ← afterTurns_succ] at turned
        rcases turned with stays | ⟨top, topToo⟩
        · refine .inr fun earlier few => ?_
          rcases Nat.le_succ_iff.1 few with within | rfl
          · exact before earlier within
          · exact stays
        · refine .inl ⟨turns + 1, Nat.le_refl _, top, topToo, fun earlier few => ?_⟩
          exact before earlier (Nat.le_of_lt_succ few)

end Conceals

/-- Machine state is invisible below M-mode: two machines that run below M-mode, not in the name of
another level, and that differ in secrets at most, on buses with the same contents, enter M-mode in
the same turn, and cannot be told apart in any turn before. -/
theorem hidden_below_machine {first second : Machine} (hart : first.hart.Alike second.hart)
    (bus : first.bus.SameContents second.bus) (turns : Nat) :
    (∃ entered ≤ turns, (afterTurns entered first).hart.privilege = .machine ∧
        (afterTurns entered second).hart.privilege = .machine ∧
        ∀ earlier < entered, Indistinguishable first.bus.accesses second.bus.accesses
          (afterTurns earlier first) (afterTurns earlier second)) ∨
      ∀ earlier ≤ turns, Indistinguishable first.bus.accesses second.bus.accesses
        (afterTurns earlier first) (afterTurns earlier second) := by
  have conceals : Conceals first.bus.accesses second.bus.accesses first second := ⟨hart, bus.echoes⟩
  rcases conceals.afterTurns turns with ⟨entered, few, top, topToo, before⟩ | before
  · refine .inl ⟨entered, few, top, topToo, fun earlier less => ?_⟩
    exact (before earlier less).indistinguishable
  · exact .inr fun earlier few => (before earlier few).indistinguishable

/-- A supervisor that reads its status register and then calls the level above. -/
def askingMachine : Machine where
  hart := { Hart.initial ⟨0, 0⟩ with privilege := .supervisor }
  bus := .allMemory [0xF3, 0x20, 0, 0x10, 0x73, 0, 0, 0]

/-- The same supervisor under an M-mode of its own. -/
def keepingMachine : Machine :=
  { askingMachine with
    hart :=
      askingMachine.hart.withSecret
        ⟨7, .ofWord _ 0x100, .ofWords 1 2 3 4, true, true, .machine⟩ }

/-- The supervisor reads the same from both, and its call enters M-mode in both. -/
theorem keepingMachine_hidden :
    Indistinguishable [] [] (afterTurns 1 askingMachine) (afterTurns 1 keepingMachine) ∧
      (afterTurns 2 askingMachine).hart.privilege = .machine ∧
      (afterTurns 2 keepingMachine).hart.privilege = .machine := by
  have alike : askingMachine.hart.Alike keepingMachine.hart := ⟨by decide, rfl, _, rfl⟩
  refine ⟨?_, by decide +kernel, by decide +kernel⟩
  rcases hidden_below_machine alike ⟨rfl, rfl⟩ 1 with ⟨entered, few, top, -⟩ | before
  · obtain rfl | rfl : entered = 0 ∨ entered = 1 := by omega
    · exact absurd top (by decide +kernel)
    · exact absurd top (by decide +kernel)
  · exact before 1 (Nat.le_refl 1)

end Machine

end Rv32
