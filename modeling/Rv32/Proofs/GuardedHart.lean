import Rv32.Instruction.Arithmetic
import Rv32.Proofs.CsrAccess
import Rv32.Proofs.GuardedOperations

/-!
# A hart that asks first

What concerns the hart alone, with every operation that is not defined everywhere asked about before
it is done. A register is an item of a table, an amount of a shift is cut to five bits, the level
and the extension fields of the status are numbers of two bits, and interrupts, exceptions and
counters have bits in registers of 32. No state of the hart leads to a breach, and each operation
does what it does in `Rv32.Hart`.
-/

namespace Rv32.Checked

/-! ## Registers and arithmetic -/

/-- The contents of a register. -/
def x (hart : Hart) (register : Reg) : Checked Word :=
  item hart.registers.x.toList register.toNat

/-- The hart after a write to a register, which `x0` ignores. -/
def setX (hart : Hart) (register : Reg) (value : Word) : Checked Hart := do
  if register ≠ Reg.zero then within hart.registers.x.toList.length register.toNat
  return hart.setX register value

/-- A shift by what the five low bits of a word say. -/
def shiftBy (op : ShiftOp) (source amount : Word) : Checked Word :=
  let places := (amount &&& 0x1F).toNat
  match op with
  | .slli => shiftLeft source places
  | .srli => shiftRight source places
  | .srai => shift BitVec.sshiftRight source places

/-- A quotient or a remainder, or `undivided` if the divisor is zero. -/
def divideUnless (division : Word → Word → Word) (undivided dividend divisor : Word) :
    Checked Word :=
  if divisor = 0 then return undivided else divide division dividend divisor

/-- What an operation computes from two registers. -/
def evalReg (op : RegOp) (first second : Word) : Checked Word :=
  match op with
  | .sll => shiftBy .slli first second
  | .srl => shiftBy .srli first second
  | .sra => shiftBy .srai first second
  | .mulh => return upperHalf (← mulSigned (first.signExtend 64) (second.signExtend 64))
  | .mulhsu => return upperHalf (← mulSigned (first.signExtend 64) (second.setWidth 64))
  | .mulhu => return upperHalf (← mul (first.setWidth 64) (second.setWidth 64))
  | .div => divideUnless BitVec.sdiv (BitVec.allOnes 32) first second
  | .divu => divideUnless BitVec.udiv (BitVec.allOnes 32) first second
  | .rem => divideUnless BitVec.srem first first second
  | .remu => divideUnless BitVec.umod first first second
  | _ => return op.eval first second

theorem x_eq (hart : Hart) (register : Reg) : x hart register = .ok (hart.x register) := by
  refine item_eq ?_
  rw [List.getElem?_eq_getElem (by simpa using register.isLt)]
  exact congrArg some (Vector.getElem_toList _)

theorem setX_eq (hart : Hart) (register : Reg) (value : Word) :
    setX hart register value = .ok (hart.setX register value) := by
  have inside : within hart.registers.x.toList.length register.toNat = .ok () :=
    within_eq (by simpa using register.isLt)
  unfold setX
  rw [inside]
  split <;> rfl

theorem shiftBy_eq (op : ShiftOp) (source amount : Word) :
    shiftBy op source amount = .ok (op.eval source (amount.setWidth 5)) := by
  have masked : (amount &&& 0x1F).toNat = (amount.setWidth 5).toNat := toNat_and_mask amount rfl
  have below : (amount.setWidth 5).toNat < 32 := (amount.setWidth 5).isLt
  unfold shiftBy
  dsimp only
  rw [masked]
  cases op with
  | slli => exact shift_eq _ _ below
  | srli => exact shift_eq _ _ below
  | srai => exact shift_eq _ _ below

theorem mulSigned_eq {first second : DoubleWord} (left : first.toInt.natAbs ≤ 2 ^ 31)
    (right : second.toInt.natAbs < 2 ^ 32) : mulSigned first second = .ok (first * second) := by
  have size : (first.toInt * second.toInt).natAbs < 2 ^ 63 := by
    rw [Int.natAbs_mul]
    calc
      _ ≤ 2 ^ 31 * second.toInt.natAbs := Nat.mul_le_mul_right _ left
      _ < 2 ^ 31 * 2 ^ 32 := Nat.mul_lt_mul_of_pos_left right (by decide)
  refine exact_eq ?_
  unfold BitVec.smulOverflow
  rw [Bool.or_eq_false_iff, decide_eq_false_iff_not, decide_eq_false_iff_not]
  omega

theorem natAbs_signExtend (value : Word) : (value.signExtend 64).toInt.natAbs ≤ 2 ^ 31 := by
  rw [BitVec.toInt_signExtend_of_le (by decide)]
  have := @BitVec.toInt_lt 32 value
  have := @BitVec.le_toInt 32 value
  omega

theorem natAbs_setWidth (value : Word) : (value.setWidth 64).toInt.natAbs < 2 ^ 32 := by
  have same : (value.setWidth 64).toNat = value.toNat := BitVec.toNat_setWidth_of_le (by decide)
  have below := value.isLt
  rw [BitVec.toInt_eq_toNat_of_lt (by omega), same, Int.natAbs_natCast]
  exact below

theorem divideUnless_eq (division : Word → Word → Word) (undivided dividend divisor : Word) :
    divideUnless division undivided dividend divisor =
      .ok (if divisor = 0 then undivided else division dividend divisor) := by
  unfold divideUnless
  split
  · rfl
  · exact divide_eq division dividend ‹_›

/-- No operation on two registers leads to a breach. Products are taken at twice the width, and
nothing is divided by zero. -/
theorem evalReg_eq (op : RegOp) (first second : Word) :
    evalReg op first second = .ok (op.eval first second) := by
  cases op with
  | sll => exact shiftBy_eq .slli first second
  | srl => exact shiftBy_eq .srli first second
  | sra => exact shiftBy_eq .srai first second
  | mulh =>
      have right : (second.signExtend 64).toInt.natAbs < 2 ^ 32 :=
        Nat.lt_of_le_of_lt (natAbs_signExtend second) (by decide)
      unfold evalReg
      rw [mulSigned_eq (natAbs_signExtend first) right]
      rfl
  | mulhsu =>
      unfold evalReg
      rw [mulSigned_eq (natAbs_signExtend first) (natAbs_setWidth second)]
      rfl
  | mulhu =>
      have fits : (first.setWidth 64).toNat * (second.setWidth 64).toNat < 2 ^ 32 * 2 ^ 32 := by
        rw [BitVec.toNat_setWidth_of_le (by decide), BitVec.toNat_setWidth_of_le (by decide)]
        exact Nat.mul_lt_mul'' first.isLt second.isLt
      unfold evalReg
      rw [mul_eq fits]
      rfl
  | div => exact divideUnless_eq ..
  | divu => exact divideUnless_eq ..
  | rem => exact divideUnless_eq ..
  | remu => exact divideUnless_eq ..
  | _ => rfl

/-! ## Status -/

/-- The two bits of a word from a place on. -/
def pair (word : Word) (low : Nat) : Checked (BitVec 2) := field 2 (word >>> low &&& 3).toNat

/-- The level to return to from M-mode. -/
def mpp (status : Status) : Checked Privilege := do
  let code ← pair status.toWord 11
  return match Privilege.ofCode code with
  | .ok level => level
  | .error _ => .user

/-- Whether some extension state has to be saved. -/
def sd (status : Status) : Checked Bool := do
  let fs := ExtensionStatus.ofBits (← pair status.toWord 13)
  let xs := ExtensionStatus.ofBits (← pair status.toWord 15)
  return fs = .dirty || xs = .dirty

/-- The status after a write of those bits of `value` that `selected` names. -/
def writeFields (status : Status) (value selected : Word) : Checked Status := do
  let word := status.toWord &&& ~~~selected ||| value &&& selected
  let spp ← field 2 (word >>> 8 &&& 1).toNat
  let mpp ← pair word 11
  let fs ← pair word 13
  let written : Status :=
    { Status.ofFields word status.mpp with
      spp := (status.setSppCode spp).spp
      mpp := (status.setMppCode mpp).mpp
      fs := ExtensionStatus.ofBits fs }
  let _ ← sd written
  return written

theorem pair_eq (word : Word) (low : Nat) : pair word low = .ok (word.extractLsb' low 2) := by
  rw [pair, field_mask _ rfl]
  rfl

theorem mpp_eq (status : Status) : mpp status = .ok status.mpp := by
  rw [mpp, pair_eq, Status.extract_mpp, ok_bind, Privilege.ofCode_code]
  rfl

theorem extract_xs (status : Status) : status.toWord.extractLsb' 15 2 = status.xs.toBits := by
  ext bit inside
  rw [BitVec.getElem_extractLsb']
  unfold Status.toWord
  simp only [BitVec.getLsbD_append]
  obtain rfl | rfl : bit = 0 ∨ bit = 1 := by omega
  · simp
  · simp

theorem sd_eq (status : Status) : sd status = .ok status.sd := by
  rw [sd, pair_eq, pair_eq, Status.extract_fs, extract_xs]
  simp only [ok_bind, ExtensionStatus.ofBits_toBits]
  exact congrArg Except.ok (Bool.or_false _)

theorem setSppCode_bit (status : Status) (word : Word) :
    (status.setSppCode ((word >>> 8 &&& 1).setWidth 2)).spp = word.getLsbD 8 := by
  have bit : (word >>> 8 &&& 1).setWidth 2 = (BitVec.ofBool (word.getLsbD 8)).setWidth 2 := by
    ext place inside
    grind
  rw [bit]
  cases word.getLsbD 8 <;> rfl

theorem writeFields_eq (status : Status) (value selected : Word) :
    writeFields status value selected = .ok (status.write value selected) := by
  unfold writeFields Status.write
  generalize status.toWord &&& ~~~selected ||| value &&& selected = word
  have small : (word >>> 8 &&& 1).toNat < 2 ^ 2 := by
    rw [@toNat_and_mask 32 _ 1 1 rfl]
    omega
  dsimp only
  rw [field_eq _ small, ok_bind, pair_eq, ok_bind, pair_eq, ok_bind, sd_eq, setSppCode_bit]
  unfold Status.setMppCode Status.ofFields
  cases Privilege.ofCode (word.extractLsb' 11 2) <;> rfl

/-! ## Control and status registers -/

/-- The access rules that follow from the address of a register. -/
def checkAccess (address : CsrAddress) (level : Privilege) (writes : Bool) :
    ExceptT CsrError Checked Unit := do
  if !address.isValid then throw (.unsupported address)
  else if writes && address.isReadOnly then throw (.readOnly address)
  else
    let required ← field 2 (address >>> 8 &&& 3).toNat
    if level.code < required then throw (.privileged address required level)

/-- Whether code at a level may read a counter. -/
def counterEnabled (setup : TrapSetup) (level : Privilege) (counter : Counter) : Checked Bool := do
  match level with
  | .machine => return true
  | .supervisor => bit setup.mcounteren.bits counter.index
  | .user =>
    if ← bit setup.mcounteren.bits counter.index then bit setup.scounteren.bits counter.index
    else return false

/-- Whether a register can be accessed now, beyond what its address says. -/
def csrEnabled (hart : Hart) (address : CsrAddress) : Checked Bool :=
  match Csr.ofAddress? address with
  | some .satp => return !(hart.privilege = .supervisor && hart.status.tvm)
  | some .cycle | some .cycleh => counterEnabled hart.setup hart.privilege .cycles
  | some .instret | some .instreth => counterEnabled hart.setup hart.privilege .instructions
  | _ => return true

/-- Whether a program at the level of the hart may access a register. -/
def checkCsr (hart : Hart) (address : CsrAddress) (writes : Bool) :
    ExceptT CsrError Checked Unit := do
  checkAccess address hart.privilege writes
  if ← csrEnabled hart address then pure () else throw (.disabled address)

theorem checkAccess_eq (address : CsrAddress) (level : Privilege) (writes : Bool) :
    checkAccess address level writes = settled (address.checkAccess level writes) := by
  have required : field 2 (address >>> 8 &&& 3).toNat = .ok address.requiredLevel := by
    rw [field_mask _ rfl]
    rfl
  unfold checkAccess CsrAddress.checkAccess
  rw [required]
  split
  · rfl
  · split
    · rfl
    · rw [lift_ok_bind]
      split <;> rfl

theorem counterEnabled_eq (setup : TrapSetup) (level : Privilege) (counter : Counter) :
    counterEnabled setup level counter = .ok (setup.counterEnabled level counter) := by
  have inside : counter.index < 32 := by cases counter <;> decide
  unfold counterEnabled
  rw [bit_eq _ inside, bit_eq _ inside]
  cases level with
  | machine => rfl
  | supervisor => rfl
  | user =>
      have both : setup.counterEnabled .user counter =
        (setup.mcounteren.enables counter && setup.scounteren.enables counter) := rfl
      rw [both]
      unfold CounterEnable.enables
      cases setup.mcounteren.bits.getLsbD counter.index <;> rfl

theorem csrEnabled_eq (hart : Hart) (address : CsrAddress) (writes : Bool) :
    ∃ enabled, csrEnabled hart address = .ok enabled ∧
      hart.checkCsr address writes = (address.checkAccess hart.privilege writes).bind fun _ =>
        if enabled then .ok () else .error (.disabled address) := by
  refine ⟨_, ?_, rfl⟩
  unfold csrEnabled
  simp only [counterEnabled_eq]
  cases Csr.ofAddress? address with
  | none => rfl
  | some register => cases register <;> rfl

theorem checkCsr_eq (hart : Hart) (address : CsrAddress) (writes : Bool) :
    checkCsr hart address writes = settled (hart.checkCsr address writes) := by
  obtain ⟨enabled, asked, checked⟩ := csrEnabled_eq hart address writes
  unfold checkCsr
  rw [checked, checkAccess_eq, asked]
  cases address.checkAccess hart.privilege writes with
  | error refusal => rfl
  | ok granted => cases enabled <;> rfl

/-! ## Interrupts -/

/-- Whether a trap for this cause is handled in S-mode. -/
def delegates (hart : Hart) (cause : Cause) : Checked Bool :=
  if hart.privilege ≤ .supervisor then
    match cause with
    | .exception raised => bit hart.setup.medeleg.bits raised.code
    | .interrupt taken => bit hart.interrupts.mideleg.bits taken.code
  else return false

/-- The address at which a trap enters. -/
def handler (vector : TrapVector) (cause : Cause) : Checked Word := do
  match vector.mode, cause with
  | .vectored, .interrupt taken => return vector.base + (← mul 4 (BitVec.ofNat 32 taken.code))
  | _, _ => return vector.base

/-- The interrupts that the level of the hart lets through. -/
def admitted (hart : Hart) : Word :=
  let pending := hart.interrupts.pendingEnabled
  let delegated := hart.interrupts.mideleg.bits
  (if Interrupts.machineEnabled hart.privilege hart.status then pending &&& ~~~delegated else 0) |||
    if Interrupts.supervisorEnabled hart.privilege hart.status then pending &&& delegated else 0

/-- The interrupt to take now: the most urgent of those that are let through. -/
def nextInterrupt (hart : Hart) : Checked (Option Interrupt) :=
  if hart.interrupts.pendingEnabled = 0 then return none
  else
    Interrupt.priority.findM? fun interrupt =>
      return admitted hart &&& (← shiftLeft 1 interrupt.code) ≠ 0

theorem delegates_eq (hart : Hart) (cause : Cause) :
    delegates hart cause = .ok (hart.delegates cause) := by
  have delegates : hart.delegates cause = (decide (hart.privilege ≤ .supervisor) &&
    match cause with
    | .exception raised => hart.setup.medeleg.bits.getLsbD raised.code
    | .interrupt taken => hart.interrupts.mideleg.bits.getLsbD taken.code) := by
    cases cause <;> rfl
  rw [delegates]
  unfold Checked.delegates
  by_cases below : hart.privilege ≤ .supervisor
  · rw [if_pos below, decide_eq_true below, Bool.true_and]
    cases cause with
    | exception raised => exact bit_eq _ (by cases raised <;> exact of_decide_eq_true rfl)
    | interrupt taken => exact bit_eq _ (by cases taken <;> decide)
  · rw [if_neg below, decide_eq_false below, Bool.false_and]
    rfl

theorem handler_eq (vector : TrapVector) (cause : Cause) :
    handler vector cause = .ok (vector.handler cause) := by
  unfold handler TrapVector.handler
  cases cause with
  | exception raised => cases vector.mode <;> rfl
  | interrupt taken =>
      have product : mul 4 (BitVec.ofNat 32 taken.code) =
          .ok (BitVec.ofNat 32 (4 * taken.code)) := by
        cases taken <;> rfl
      cases vector.mode with
      | direct => rfl
      | vectored =>
          dsimp only
          rw [product]
          rfl

theorem and_mask_ne_zero (word : Word) {place : Nat} (inside : place < 32) :
    decide (word &&& (1 : Word) <<< place ≠ 0) = word.getLsbD place := by
  have one : (1 : Word) <<< place = BitVec.twoPow 32 place := (BitVec.twoPow_eq 32 place).symm
  have nonzero : BitVec.twoPow 32 place ≠ 0#32 := by
    intro zero
    have value := congrArg BitVec.toNat zero
    rw [BitVec.toNat_twoPow_of_lt inside] at value
    exact absurd value (Nat.ne_of_gt (Nat.two_pow_pos place))
  rw [one, BitVec.and_twoPow]
  cases word.getLsbD place with
  | false => rfl
  | true => exact decide_eq_true nonzero

theorem getLsbD_admitted (hart : Hart) {interrupt : Interrupt} (inside : interrupt.code < 32) :
    (admitted hart).getLsbD interrupt.code =
      hart.interrupts.admissible hart.privilege hart.status interrupt := by
  unfold admitted Interrupts.admissible Interrupts.delegated
  generalize Interrupts.machineEnabled hart.privilege hart.status = toMachine
  generalize Interrupts.supervisorEnabled hart.privilege hart.status = toSupervisor
  cases delegated : hart.interrupts.mideleg.bits.getLsbD interrupt.code <;>
    cases toMachine <;> cases toSupervisor <;>
      simp [delegated, inside, -BitVec.getLsbD_eq_getElem]

theorem nextInterrupt_eq (hart : Hart) : nextInterrupt hart = .ok hart.nextInterrupt := by
  have masks : (fun interrupt : Interrupt =>
      (do return admitted hart &&& (← shiftLeft 1 interrupt.code) ≠ 0 : Checked Bool)) =
        fun interrupt =>
          pure (hart.interrupts.admissible hart.privilege hart.status interrupt) := by
    funext interrupt
    have inside : interrupt.code < 32 := by cases interrupt <;> decide
    rw [shiftLeft_eq _ inside, ok_bind, and_mask_ne_zero _ inside,
      getLsbD_admitted hart inside]
  unfold nextInterrupt Hart.nextInterrupt Interrupts.next
  split
  · rename_i nothing
    have never : ∀ interrupt ∈ Interrupt.priority,
        ¬ hart.interrupts.admissible hart.privilege hart.status interrupt = true := by
      intro interrupt _
      unfold Interrupts.admissible
      simp [nothing]
    rw [List.find?_eq_none.2 never]
    rfl
  · rw [masks, List.findM?_pure]
    rfl

/-! ## Traps -/

/-- A change that may be reported, or else be stopped by a breach. -/
abbrev Reported := ExceptT Breach Logged

/-- A change that there is nothing to ask about. -/
def plain {α : Type} (change : Logged α) : Reported α := ExceptT.lift change

/-- A write to the status register. -/
def writeStatus (hart : Hart) (value selected : Word) : Reported Hart := do
  let status ← writeFields hart.status value selected
  let after := { hart with status := status }
  if hart.status.translationDiffers status then after.flush else return after

/-- The hart after a write of `value` to a register. -/
def writeCsr (hart : Hart) (register : Csr) (value : Word) : Reported Hart :=
  match register with
  | .sstatus => writeStatus hart value Status.supervisorMask
  | .mstatus => writeStatus hart value Status.machineMask
  | _ => hart.writeCsr register value

/-- Enter the handler of a trap. -/
def enterTrap (hart : Hart) (cause : Cause) : Reported Hart := do
  let delegated ← delegates hart cause
  let pc := hart.pc
  Logged.report (.trapped cause pc hart.privilege delegated)
  let hart := { hart with mcycle := hart.mcycle + 1 }
  if delegated then
    let saved :=
      { hart with
        supervisorTrap := hart.supervisorTrap.enter pc cause
        status := hart.status.enterSupervisor hart.privilege }
    let entered ← saved.setPrivilege .supervisor
    return entered.withPc (← handler entered.setup.stvec cause)
  else
    let saved :=
      { hart with
        machineTrap := hart.machineTrap.enter pc cause
        status := hart.status.enterMachine hart.privilege }
    let entered ← saved.setPrivilege .machine
    return entered.withPc (← handler entered.setup.mtvec cause)

/-- Leave a trap that was handled in M-mode. -/
def returnFromMachine (hart : Hart) : Reported Hart := do
  let level ← mpp hart.status
  Hart.returnTo { hart with status := hart.status.leaveMachine } level hart.machineTrap.epc.bits

theorem checked_bind {α β : Type} (value : α) (next : α → Reported β) :
    ((liftM (Except.ok value : Checked α) : Reported α) >>= next) = next value :=
  pure_bind (m := Reported) value next

theorem plain_bind {α β : Type} (change : Logged α) (next : α → Logged β) :
    plain (change >>= next) = plain change >>= fun value => plain (next value) := by
  unfold plain
  refine ExceptT.ext ?_
  rw [ExceptT.run_bind_lift, ExceptT.run_lift, map_bind]
  rfl

theorem plain_map {α β : Type} (change : Logged α) (map : α → β) :
    plain (map <$> change) = map <$> plain change := by
  rw [map_eq_pure_bind, map_eq_pure_bind, plain_bind]
  rfl

theorem writeStatus_eq (hart : Hart) (value selected : Word) :
    writeStatus hart value selected = plain (hart.writeStatus value selected) := by
  unfold writeStatus Hart.writeStatus
  rw [writeFields_eq, checked_bind]
  dsimp only
  split <;> rfl

theorem writeCsr_eq (hart : Hart) (register : Csr) (value : Word) :
    writeCsr hart register value = plain (hart.writeCsr register value) := by
  cases register with
  | sstatus => exact writeStatus_eq ..
  | mstatus => exact writeStatus_eq ..
  | _ => rfl

theorem enterTrap_eq (hart : Hart) (cause : Cause) :
    enterTrap hart cause = plain (hart.enterTrap cause) := by
  unfold enterTrap Hart.enterTrap
  simp only [delegates_eq, handler_eq, checked_bind, plain_bind]
  refine congrArg _ (funext fun reported => ?_)
  split
  · rw [plain_bind]
    rfl
  · rw [plain_bind]
    rfl

theorem returnFromMachine_eq (hart : Hart) :
    returnFromMachine hart = plain hart.returnFromMachine := by
  unfold returnFromMachine Hart.returnFromMachine
  rw [mpp_eq, checked_bind]
  rfl

end Rv32.Checked
