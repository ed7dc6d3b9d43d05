import Rv32.Proofs.PrivilegeIntegrity
import Rv32.Proofs.RaisedExceptions
import Rv32.Proofs.Turns

/-!
# Control flow stays aligned

Instructions begin at even addresses. Every address that a hart goes to is even: the distances of
jumps and branches count halfwords, a jump through a register clears the lowest bit, instructions
are two or four bytes long, and neither trap vectors nor the registers for return addresses can lead
to an odd one. So a program counter that is even stays so along every action
(`Machine.execute_keepsEvenPc`, `Machine.cycle_keepsEvenPc`), and nothing is ever fetched from an
odd address (`Machine.control_flow_aligned`).
-/

namespace Rv32

/-! ## Even addresses -/

namespace Width

/-- An address is even if its lowest bit is clear. -/
theorem aligned_half_iff {address : Word} :
    half.Aligned address ↔ address.getLsbD 0 = false := by
  change address.toNat % 2 = 0 ↔ address.toNat.testBit 0 = false
  rw [Nat.testBit_zero, decide_eq_false_iff_not]
  omega

/-- A sum of aligned addresses is aligned, also if it wraps round. -/
theorem Aligned.add {width : Width} {first second : Word} (left : width.Aligned first)
    (right : width.Aligned second) : width.Aligned (first + second) := by
  unfold Aligned at *
  rw [BitVec.toNat_add]
  cases width with
  | byte => exact Nat.mod_one _
  | half =>
      dsimp only [bytes] at *
      omega
  | word =>
      dsimp only [bytes] at *
      omega

end Width

theorem Instruction.aligned_distance {bits : Nat} (halfwords : BitVec bits) :
    Width.half.Aligned (distance halfwords) := by
  rw [Width.aligned_half_iff]
  unfold distance
  rw [BitVec.getLsbD_signExtend, if_pos (Nat.succ_pos bits), BitVec.getLsbD_append,
    if_pos Nat.one_pos]
  exact Bool.and_false _

theorem aligned_clear_lowest (address : Word) : Width.half.Aligned (address &&& ~~~1) := by
  rw [Width.aligned_half_iff, BitVec.getLsbD_and]
  exact Bool.and_false _

theorem clear_lowest_of_aligned {address : Word} (aligned : Width.half.Aligned address) :
    address &&& ~~~1 = address := by
  refine BitVec.eq_of_getLsbD_eq fun index inside => ?_
  rw [BitVec.getLsbD_and]
  cases index with
  | zero => rw [Width.aligned_half_iff.1 aligned, Bool.false_and]
  | succ index =>
      have kept : (~~~(1 : Word)).getLsbD (index + 1) = true := by
        rw [BitVec.getLsbD_not, BitVec.ofNat_eq_ofNat, BitVec.getLsbD_one, decide_eq_true inside]
        rfl
      rw [kept, Bool.and_true]

theorem TrapVector.aligned_handler (vector : TrapVector) (cause : Cause) :
    Width.half.Aligned (vector.handler cause) := by
  have base : Width.half.Aligned vector.base := by
    rw [Width.aligned_half_iff]
    unfold TrapVector.base
    rw [BitVec.getLsbD_and]
    exact Bool.and_false _
  unfold handler
  split
  · rename_i taken _
    refine base.add ?_
    change (BitVec.ofNat 32 (4 * taken.code)).toNat % 2 = 0
    rw [BitVec.toNat_ofNat]
    omega
  · exact base

theorem aligned_instructionAddress (address : Warl instructionAddressBits) :
    Width.half.Aligned address.bits := by
  rw [Width.aligned_half_iff, ← address.bits_legal, BitVec.getLsbD_and]
  exact Bool.and_false _

/-! ## The program counter -/

namespace Hart

/-- The addresses of instructions that the hart holds are even, and `x0` is zero. -/
structure ControlAligned (hart : Hart) : Prop where
  pc : Width.half.Aligned hart.pc
  zero : hart.x Reg.zero = 0
  mepc : Width.half.Aligned (hart.readCsr .mepc)
  sepc : Width.half.Aligned (hart.readCsr .sepc)

/-- All but the program counter is so in every state. -/
theorem controlAligned_of_pc {hart : Hart} (even : Width.half.Aligned hart.pc) :
    hart.ControlAligned where
  pc := even
  zero := hart.x_zero
  mepc := aligned_instructionAddress hart.machineTrap.epc
  sepc := aligned_instructionAddress hart.supervisorTrap.epc

/-- A handler begins at an even address. -/
theorem aligned_enterTrap (hart : Hart) (cause : Cause) :
    Width.half.Aligned (hart.enterTrap cause).value.pc := by
  rw [(hart.entered_enterTrap cause).pc]
  exact TrapVector.aligned_handler ..

theorem aligned_returnFromMachine (hart : Hart) :
    Width.half.Aligned hart.returnFromMachine.value.pc := by
  rw [value_returnFromMachine]
  exact aligned_instructionAddress _

theorem aligned_returnFromSupervisor (hart : Hart) :
    Width.half.Aligned hart.returnFromSupervisor.value.pc := by
  rw [value_returnFromSupervisor]
  exact aligned_instructionAddress _

end Hart

namespace Machine

/-- If the program counter was even before, it is so after. -/
def KeepsEvenPc (before after : Machine) : Prop :=
  Width.half.Aligned before.hart.pc → Width.half.Aligned after.hart.pc

namespace KeepsEvenPc

theorem refl (machine : Machine) : machine.KeepsEvenPc machine := id

theorem trans (first second third : Machine) (left : first.KeepsEvenPc second)
    (right : second.KeepsEvenPc third) : first.KeepsEvenPc third :=
  right ∘ left

theorem of_pc {before after : Machine} (same : after.hart.pc = before.hart.pc) :
    before.KeepsEvenPc after := by
  intro even
  rw [same]
  exact even

end KeepsEvenPc

open KeepsEvenPc (refl trans of_pc)

/-- Accesses do not reach the program counter. -/
theorem access_keepsEvenPc {α : Type} {attempt : Attempt α}
    (accesses : attempt.Within HartAccessed) : attempt.Within KeepsEvenPc :=
  fun machine => .of_pc (accesses machine).pc

section Lengths

variable {length : Word} (even : Width.half.Aligned length)

include even

theorem advance_keepsEvenPc :
    Effect.Within KeepsEvenPc (modifyHart fun hart => hart.advance length) :=
  fun _ pc => pc.add even

theorem finish_keepsEvenPc (rd : Reg) (value : Word) :
    (finish rd value length).Within KeepsEvenPc := by
  intro machine pc
  have moved : Width.half.Aligned ((machine.hart.setX rd value).pc + length) := by
    rw [Hart.pc_setX]
    exact pc.add even
  exact moved

theorem accessCsr_keepsEvenPc (rd : Reg) (address : CsrAddress) (reads writes : Bool)
    (change : Word → Word) (raw : Word) :
    (accessCsr rd address reads writes change raw length).Within KeepsEvenPc := by
  refine .bind trans (.lift refl) fun hart => ?_
  split
  · rename_i register _ _
    refine .ite (.bind trans (.lift fun machine => of_pc ?_) fun _ => ?_) ?_
    · exact machine.hart.pc_writeCsr register _
    · exact .lift (finish_keepsEvenPc even rd _)
    · exact .lift (finish_keepsEvenPc even rd _)
  · exact .throw refl _

theorem waitForInterrupt_keepsEvenPc : (waitForInterrupt length).Within KeepsEvenPc := by
  intro machine pc
  unfold waitForInterrupt
  rw [Effect.outcome_bind, Effect.outcome_getHart]
  dsimp only
  rw [Effect.outcome_ite, Effect.outcome_ite]
  split
  · split <;> exact pc.add even
  · exact pc.add even

end Lengths

theorem require_keepsEvenPc (permitted : Bool) (raw : Word) {rest : Attempt Unit}
    (keeps : rest.Within KeepsEvenPc) :
    Attempt.Within KeepsEvenPc (require permitted raw >>= fun _ => rest) :=
  .bind trans (.ite (.pure refl _) (.throw refl _)) fun _ => keeps

/-- An instruction goes from an even address to an even one, whether it completes or not. -/
theorem execute_keepsEvenPc (instruction : Instruction) (raw : Word) {length : Word}
    (even : Width.half.Aligned length) :
    (execute instruction raw length).Within KeepsEvenPc := by
  have ended {α : Type} {access : Attempt α} (accesses : access.Within HartAccessed) (rd : Reg)
      (change : α → Word) : Attempt.Within KeepsEvenPc
        (access >>= fun value => liftM (finish rd (change value) length)) :=
    .bind trans (access_keepsEvenPc accesses) fun _ => .lift (finish_keepsEvenPc even rd _)
  intro machine pc
  unfold execute
  rw [Attempt.outcome_lift_bind, Effect.outcome_getHart]
  cases instruction with
  | jal rd offset => exact pc.add (Instruction.aligned_distance offset)
  | jalr rd rs1 offset => exact aligned_clear_lowest _
  | branch condition rs1 rs2 offset =>
      refine pc.add ?_
      split
      · exact Instruction.aligned_distance offset
      · exact even
  | load op rd rs1 offset =>
      exact ended (hartAccessed_respects.load _ _) rd op.extend machine pc
  | store width rs2 rs1 offset =>
      have stored := access_keepsEvenPc (hartAccessed_respects.store
        (machine.hart.x rs1 + offset.signExtend 32) (machine.hart.x rs2) width)
      exact Attempt.Within.bind trans stored (fun _ => .lift (advance_keepsEvenPc even)) machine pc
  | loadReserved rd rs1 =>
      exact ended (hartAccessed_respects.loadReserved _) rd id machine pc
  | storeConditional rd rs1 rs2 =>
      exact ended (hartAccessed_respects.storeConditional _ _) rd (boolWord !·) machine pc
  | amo op rd rs1 rs2 =>
      exact ended (hartAccessed_respects.atomicUpdate _ _) rd id machine pc
  | fence predecessor successor => exact advance_keepsEvenPc even machine pc
  | fenceI => exact advance_keepsEvenPc even machine pc
  | csr op rd number rs1 => exact accessCsr_keepsEvenPc even _ _ _ _ _ _ machine pc
  | csrImm op rd number imm => exact accessCsr_keepsEvenPc even _ _ _ _ _ _ machine pc
  | ecall => exact pc
  | ebreak => exact pc
  | sret =>
      refine require_keepsEvenPc _ raw (.lift fun middle _ => ?_) machine pc
      exact middle.hart.aligned_returnFromSupervisor
  | mret =>
      refine require_keepsEvenPc _ raw (.lift fun middle _ => ?_) machine pc
      exact middle.hart.aligned_returnFromMachine
  | wfi =>
      exact require_keepsEvenPc _ raw (.lift (waitForInterrupt_keepsEvenPc even)) machine pc
  | sfenceVma rs1 rs2 =>
      refine require_keepsEvenPc _ raw (.bind trans (.lift fun _ => ?_) fun _ => ?_) machine pc
      · exact of_pc rfl
      · exact .lift (advance_keepsEvenPc even)
  | _ => exact finish_keepsEvenPc even _ _ machine pc

/-- Instructions are two or four bytes long. -/
theorem aligned_of_decodeFetched {raw length : Word} {instruction : Instruction}
    (decoded : decodeFetched raw = .ok (instruction, length)) : Width.half.Aligned length := by
  unfold decodeFetched at decoded
  split at decoded
  · rcases expanded : Instruction.expand (raw.setWidth 16) with failure | expansion
    · rw [expanded] at decoded
      cases decoded
    · rw [expanded] at decoded
      cases decoded
      decide
  · rcases long : Instruction.decode raw with failure | meaning
    · rw [long] at decoded
      cases decoded
    · rw [long] at decoded
      cases decoded
      decide

theorem executeNext_keepsEvenPc : executeNext.Within KeepsEvenPc := by
  have fetches : fetch.Within KeepsEvenPc :=
    access_keepsEvenPc fun machine => (fetch_hartCached machine).access
  refine .bind trans fetches fun raw => ?_
  unfold executeFetched
  split
  · rename_i instruction length decoded
    exact execute_keepsEvenPc instruction raw (aligned_of_decodeFetched decoded)
  · exact .throw refl _

/-- A turn ends in a handler or behind an instruction, at an even address in either case. -/
theorem cycle_keepsEvenPc : cycle.Within KeepsEvenPc := by
  intro machine pc
  have turn := cycle_turns machine
  generalize cycle.outcome machine = ended at turn
  obtain ⟨cost, after⟩ := ended
  cases turn with
  | interrupted pending => exact machine.hart.aligned_enterTrap _
  | completed uninterrupted ran =>
      have kept := executeNext_keepsEvenPc machine.counted pc
      rw [ran] at kept
      exact kept
  | @failed middle raised uninterrupted ran => exact middle.hart.aligned_enterTrap _

/-! ## Runs -/

/-- At an even address no instruction is misaligned, and none finds its target misaligned. -/
theorem trapCause_ne_misaligned {machine : Machine} (even : Width.half.Aligned machine.hart.pc)
    (address : Word) :
    machine.trapCause ≠ some (.exception (.instructionAddressMisaligned address)) := by
  intro misaligned
  unfold trapCause at misaligned
  split at misaligned
  · cases misaligned
  · rcases ran : executeNext.outcome machine.counted with ⟨raised | done, after⟩
    · rw [ran] at misaligned
      cases misaligned
      rcases Attempt.outcome_bind_eq_error.1 ran with fetchFailed | ⟨raw, fetched, -, failed⟩
      · have even : Width.half.Aligned machine.counted.hart.pc := even
        cases fetch_raises even fetchFailed
      · rcases executeFetched_raisesOnly raw _ _ _ failed with refused | ⟨instruction, -, can⟩
        · cases refused
        · exact can.ne_misaligned address rfl
    · rw [ran] at misaligned
      cases misaligned

/-- From an even address on, control flow stays aligned: in every state between two turns, and in
the one that a run ends in, the program counter and the addresses to return to are even, `x0` is
zero, and the next turn does not raise that an instruction is misaligned. -/
theorem control_flow_aligned (machine : Machine) (even : Width.half.Aligned machine.hart.pc) :
    (∀ turns, (afterTurns turns machine).hart.ControlAligned ∧
      ∀ address, (afterTurns turns machine).trapCause ≠
        some (.exception (.instructionAddressMisaligned address))) ∧
      ∀ budget, (machine.run budget).value.hart.ControlAligned := by
  have turns (reached : Machine) (pc : Width.half.Aligned reached.hart.pc)
      (_ : reached.hart.halted = false) : Width.half.Aligned (cycle.outcome reached).2.hart.pc :=
    cycle_keepsEvenPc reached pc
  refine ⟨fun count => ?_, fun budget => ?_⟩
  · have reached := afterTurns_keeps (Width.half.Aligned ·.hart.pc) turns even count
    exact ⟨Hart.controlAligned_of_pc reached, trapCause_ne_misaligned reached⟩
  · have ended := run_keeps (Width.half.Aligned ·.hart.pc) turns (fun _ _ pc => pc) even budget
    exact Hart.controlAligned_of_pc ended

/-- A machine whose only instruction jumps back across address zero. -/
def wrappingMachine : Machine := initial ⟨0, 0⟩ (.allMemory [0xFD, 0xBF])

/-- The jump wraps round to an even address. Nothing is there, so the next turn enters a trap that
remembers this address. -/
theorem wrappingMachine_aligned :
    Width.half.Aligned wrappingMachine.hart.pc ∧
      (afterTurns 1 wrappingMachine).hart.pc = 0xFFFFFFFE ∧
      (afterTurns 2 wrappingMachine).hart.readCsr .mepc = 0xFFFFFFFE ∧
      (∀ turns, (afterTurns turns wrappingMachine).hart.ControlAligned ∧
        ∀ address, (afterTurns turns wrappingMachine).trapCause ≠
          some (.exception (.instructionAddressMisaligned address))) ∧
      ∀ budget, (wrappingMachine.run budget).value.hart.ControlAligned := by
  have even : Width.half.Aligned wrappingMachine.hart.pc := by decide
  exact ⟨even, by decide +kernel, by decide +kernel, control_flow_aligned wrappingMachine even⟩

end Machine

end Rv32
