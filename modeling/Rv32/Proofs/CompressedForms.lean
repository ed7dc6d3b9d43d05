import Rv32.Proofs.CsrAccess
import Rv32.Proofs.Encoding
import Rv32.Proofs.HartFrame

/-!
# Compressed instructions and what they stand for

An instruction can be executed from encodings of different lengths. `Instruction.settle` is all that
the length decides: the address that a jump links to, and where the program goes on if it does not
jump. `Instruction.Alike` compares two executions that are told different bits and lengths, and
`Machine.execute_alike` shows for every instruction that they agree on all the rest.
`Machine.expansion_exact` concludes that a compressed instruction means what it stands for.
-/

namespace Rv32

/-- The bits that an instruction was fetched as, and its length. -/
structure Form where
  raw : Word
  length : Word

namespace Instruction

/-- The hart after an instruction of the given length, made from one that may differ in what the
length decides. -/
def settle (instruction : Instruction) (start : Hart) (length : Word) (after : Hart) : Hart :=
  match instruction with
  | .jal rd _ | .jalr rd _ _ => after.setX rd (start.pc + length)
  | .branch condition rs1 rs2 _ =>
    if condition.holds (start.x rs1) (start.x rs2) then after
    else after.withPc (start.pc + length)
  | .sret | .mret => after
  | _ => after.withPc (start.pc + length)

/-- The instruction does not jump. -/
def GoesOn (instruction : Instruction) (start : Hart) : Prop :=
  ∀ length after, instruction.settle start length after = after.withPc (start.pc + length)

/-- Executions of one instruction in two forms agree on the diagnostics and on the bus. Either both
complete, with the same hart up to what the length decides, or both end with the same exception in
the same state, where an illegal instruction is reported as the bits that were fetched. -/
inductive Alike (instruction : Instruction) (start : Hart) (first second : Form) :
    Logged (Except Exception Unit × Machine) → Logged (Except Exception Unit × Machine) → Prop
  | completed (log : Array Diagnostic) (after : Hart) (bus : Bus) :
    Alike instruction start first second
      ⟨(.ok (), ⟨instruction.settle start first.length after, bus⟩), log⟩
      ⟨(.ok (), ⟨instruction.settle start second.length after, bus⟩), log⟩
  | failed (log : Array Diagnostic) (raised : Exception) (after : Machine) :
    Alike instruction start first second ⟨(.error raised, after), log⟩
      ⟨(.error raised, after), log⟩
  | refused (log : Array Diagnostic) (after : Machine) :
    Alike instruction start first second ⟨(.error (.illegalInstruction first.raw), after), log⟩
      ⟨(.error (.illegalInstruction second.raw), after), log⟩

end Instruction

namespace Hart

theorem withPc_setX (hart : Hart) (register : Reg) (value pc : Word) :
    (hart.setX register value).withPc pc = (hart.withPc pc).setX register value := by
  unfold setX withPc Registers.set
  dsimp only
  split <;> rfl

theorem advance_eq_withPc {hart : Hart} {pc : Word} (here : hart.pc = pc) (length : Word) :
    hart.advance length = hart.withPc (pc + length) := by
  rw [← here]
  rfl

end Hart

namespace Machine

variable {instruction : Instruction} {start : Hart} {first second : Form} {machine : Machine}

/-- The two attempts make executions of the instruction that are alike. -/
def AlikeAt (instruction : Instruction) (start : Hart) (first second : Form)
    (attempt attempt' : Attempt Unit) (machine : Machine) : Prop :=
  instruction.Alike start first second (attempt.run.run machine) (attempt'.run.run machine)

namespace AlikeAt

theorem throw (raised : Exception) :
    AlikeAt instruction start first second (throw raised) (throw raised) machine :=
  .failed _ raised machine

theorem after {result result' : Logged (Except Exception Unit × Machine)}
    (log : Array Diagnostic) (rest : instruction.Alike start first second result result') :
    instruction.Alike start first second (.after log result) (.after log result') := by
  cases rest with
  | completed rest hart bus => exact .completed (log ++ rest) hart bus
  | failed rest raised machine => exact .failed (log ++ rest) raised machine
  | refused rest machine => exact .refused (log ++ rest) machine

/-- The same work may be done first. -/
theorem bind {α : Type} {attempt : Attempt α} {next next' : α → Attempt Unit}
    (rest : ∀ value after, attempt.outcome machine = (.ok value, after) →
      AlikeAt instruction start first second (next value) (next' value) after) :
    AlikeAt instruction start first second (attempt >>= next) (attempt >>= next') machine := by
  have split : ∀ next : α → Attempt Unit, (attempt >>= next).run.run machine =
      Logged.after (attempt.run.run machine).log
        (StateT.run (ExceptT.bindCont next (attempt.outcome machine).1)
          (attempt.outcome machine).2) :=
    fun _ => rfl
  unfold AlikeAt
  rw [split, split]
  apply after
  rcases reached : attempt.outcome machine with ⟨raised | value, middle⟩
  · exact .failed _ raised middle
  · exact rest value middle reached

/-- The same change may be made first. -/
theorem lift {α : Type} {effect : Effect α} {next next' : α → Attempt Unit}
    (rest : AlikeAt instruction start first second (next (effect.outcome machine).1)
      (next' (effect.outcome machine).1) (effect.outcome machine).2) :
    AlikeAt instruction start first second (liftM effect >>= next) (liftM effect >>= next')
      machine := by
  refine bind fun value after reached => ?_
  rw [Attempt.outcome_lift] at reached
  cases reached
  exact rest

theorem require (allowed : Bool) {next next' : Attempt Unit}
    (rest : AlikeAt instruction start first second next next' machine) :
    AlikeAt instruction start first second (Machine.require allowed first.raw >>= fun _ => next)
      (Machine.require allowed second.raw >>= fun _ => next') machine := by
  cases allowed with
  | true => exact after #[] rest
  | false => exact .refused _ machine

/-- An instruction that does not jump goes on behind itself. -/
theorem advance (effect : Word → Effect Unit) (hart : Hart) (log : Array Diagnostic)
    (onward : instruction.GoesOn start) (here : hart.pc = start.pc)
    (moves : ∀ length,
      (effect length).run machine = ⟨((), ⟨hart.advance length, machine.bus⟩), log⟩) :
    AlikeAt instruction start first second (liftM (effect first.length))
      (liftM (effect second.length)) machine := by
  have ended : instruction.Alike start first second _ _ :=
    .completed (log ++ #[]) hart machine.bus
  rw [onward first.length hart, onward second.length hart, ← Hart.advance_eq_withPc here,
    ← Hart.advance_eq_withPc here] at ended
  have runs : ∀ length, (liftM (effect length) : Attempt Unit).run.run machine =
      ⟨(.ok (), ⟨hart.advance length, machine.bus⟩), log ++ #[]⟩ := by
    intro length
    have lifted : (liftM (effect length) : Attempt Unit).run.run machine =
      ((effect length).run machine >>= fun result => pure (.ok result.1, result.2)) := rfl
    rw [lifted, moves]
    rfl
  unfold AlikeAt
  rw [runs, runs]
  exact ended

theorem finish (onward : instruction.GoesOn start) (here : machine.hart.pc = start.pc) (rd : Reg)
    (value : Word) :
    AlikeAt instruction start first second (liftM (Machine.finish rd value first.length))
      (liftM (Machine.finish rd value second.length)) machine :=
  advance (Machine.finish rd value) (machine.hart.setX rd value) #[] onward
    ((Hart.pc_setX ..).trans here) fun _ => rfl

theorem goOn (onward : instruction.GoesOn start) (here : machine.hart.pc = start.pc) :
    AlikeAt instruction start first second
      (liftM (modifyHart fun hart => hart.advance first.length))
      (liftM (modifyHart fun hart => hart.advance second.length)) machine :=
  advance (fun length => modifyHart fun hart => hart.advance length) machine.hart #[] onward here
    fun _ => rfl

/-- A change that leaves nothing to the length. -/
theorem same (whole : ∀ length after, instruction.settle start length after = after)
    (effect : Effect Unit) :
    AlikeAt instruction start first second (liftM effect) (liftM effect) machine := by
  have ended : instruction.Alike start first second _ _ :=
    .completed ((effect.run machine).log ++ #[]) (effect.outcome machine).2.hart
      (effect.outcome machine).2.bus
  rw [whole, whole] at ended
  exact ended

/-- A jump goes to the same place and links to what is behind it. -/
theorem link (rd : Reg) (links : ∀ length after,
      instruction.settle machine.hart length after = after.setX rd (machine.hart.pc + length))
    (target : Word) :
    AlikeAt instruction machine.hart first second
      (liftM (modifyHart fun hart => (hart.setX rd (hart.pc + first.length)).withPc target))
      (liftM (modifyHart fun hart => (hart.setX rd (hart.pc + second.length)).withPc target))
      machine := by
  have ended : instruction.Alike machine.hart first second _ _ :=
    .completed (#[] ++ #[]) (machine.hart.withPc target) machine.bus
  rw [links, links, ← Hart.withPc_setX, ← Hart.withPc_setX] at ended
  exact ended

theorem accessCsr (onward : instruction.GoesOn start) (here : machine.hart.pc = start.pc)
    (rd : Reg) (address : CsrAddress) (reads writes : Bool) (change : Word → Word) :
    AlikeAt instruction start first second
      (Machine.accessCsr rd address reads writes change first.raw first.length)
      (Machine.accessCsr rd address reads writes change second.raw second.length) machine := by
  unfold Machine.accessCsr
  refine lift ?_
  dsimp only [Effect.outcome_getHart]
  split
  · cases writes with
    | false => exact finish onward here rd _
    | true =>
        refine lift (finish onward ?_ rd _)
        exact (Hart.pc_writeCsr ..).trans here
  · exact .refused _ machine

theorem waitForInterrupt (onward : instruction.GoesOn start) (here : machine.hart.pc = start.pc) :
    AlikeAt instruction start first second (liftM (Machine.waitForInterrupt first.length))
      (liftM (Machine.waitForInterrupt second.length)) machine := by
  by_cases idle : machine.hart.interrupts.pendingEnabled = 0
  · by_cases forever : machine.hart.interrupts.mie.bits = 0
    · refine advance Machine.waitForInterrupt { machine.hart with halted := true }
        #[.sleepsForever machine.hart.pc] onward here fun length => ?_
      unfold Machine.waitForInterrupt
      rw [StateT.run_bind, run_getHart, pure_bind]
      dsimp only
      rw [if_pos idle, if_pos forever]
      rfl
    · refine advance Machine.waitForInterrupt { machine.hart with halted := true } #[] onward here
        fun length => ?_
      unfold Machine.waitForInterrupt
      rw [StateT.run_bind, run_getHart, pure_bind]
      dsimp only
      rw [if_pos idle, if_neg forever]
      rfl
  · refine advance Machine.waitForInterrupt machine.hart #[] onward here fun length => ?_
    unfold Machine.waitForInterrupt
    rw [StateT.run_bind, run_getHart, pure_bind]
    dsimp only
    rw [if_neg idle]
    rfl

end AlikeAt

/-- Two executions of an instruction are alike, whatever its bits and its length are said to be. -/
theorem execute_alike (instruction : Instruction) (first second : Form) (machine : Machine) :
    AlikeAt instruction machine.hart first second
      (execute instruction first.raw first.length) (execute instruction second.raw second.length)
      machine := by
  have pc_of_access {α : Type} {attempt : Attempt α} {value : α} {after : Machine}
      (accessed : attempt.Within HartAccessed)
      (reached : attempt.outcome machine = (.ok value, after)) :
      after.hart.pc = machine.hart.pc := by
    have kept := (accessed machine).pc
    rw [reached] at kept
    exact kept
  refine .lift ?_
  dsimp only [Effect.outcome_getHart]
  cases instruction with
  | jal rd offset => exact .link rd (fun _ _ => rfl) _
  | jalr rd rs1 offset => exact .link rd (fun _ _ => rfl) _
  | branch condition rs1 rs2 offset =>
      by_cases taken : condition.holds (machine.hart.x rs1) (machine.hart.x rs2) = true
      · simp only [if_pos taken]
        refine .same (fun _ _ => ?_) _
        exact if_pos taken
      · simp only [if_neg taken]
        refine .goOn (fun _ _ => ?_) rfl
        exact if_neg taken
  | load op rd rs1 offset =>
      refine .bind fun value after reached => .finish (fun _ _ => rfl) ?_ rd _
      exact pc_of_access (hartAccessed_respects.load _ _) reached
  | store width rs2 rs1 offset =>
      refine .bind fun value after reached => .goOn (fun _ _ => rfl) ?_
      exact pc_of_access (hartAccessed_respects.store _ _ _) reached
  | loadReserved rd rs1 =>
      refine .bind fun value after reached => .finish (fun _ _ => rfl) ?_ rd _
      exact pc_of_access (hartAccessed_respects.loadReserved _) reached
  | storeConditional rd rs1 rs2 =>
      refine .bind fun value after reached => .finish (fun _ _ => rfl) ?_ rd _
      exact pc_of_access (hartAccessed_respects.storeConditional _ _) reached
  | amo op rd rs1 rs2 =>
      refine .bind fun value after reached => .finish (fun _ _ => rfl) ?_ rd _
      exact pc_of_access (hartAccessed_respects.atomicUpdate _ _) reached
  | csr op rd number rs1 => exact .accessCsr (fun _ _ => rfl) rfl ..
  | csrImm op rd number imm => exact .accessCsr (fun _ _ => rfl) rfl ..
  | fence predecessor successor => exact .goOn (fun _ _ => rfl) rfl
  | fenceI => exact .goOn (fun _ _ => rfl) rfl
  | ecall => exact .throw _
  | ebreak => exact .throw _
  | sret => exact .require _ (.same (fun _ _ => rfl) _)
  | mret => exact .require _ (.same (fun _ _ => rfl) _)
  | wfi => exact .require _ (.waitForInterrupt (fun _ _ => rfl) rfl)
  | sfenceVma rs1 rs2 => exact .require _ (.lift (.goOn (fun _ _ => rfl) rfl))
  | _ => exact .finish (fun _ _ => rfl) rfl _ _

/-! ## What is fetched -/

theorem isCompressed_of_expand {parcel : Half} {instruction : Instruction}
    (expands : Instruction.expand parcel = .ok instruction) :
    Instruction.isCompressed parcel = true := by
  refine bne_iff_ne.2 fun long => ?_
  have low : Instruction.bits parcel 1 0 = 0b11 := long
  unfold Instruction.expand at expands
  rw [low] at expands
  split at expands <;> cases expands

theorem not_isCompressed_of_decode {word : Word} {instruction : Instruction}
    (decodes : Instruction.decode word = .ok instruction) :
    Instruction.isCompressed (word.setWidth 16) = false := by
  have low : (word.setWidth 16).extractLsb' 0 2 =
      (Instruction.fieldOpcode word).extractLsb' 0 2 := by
    ext index inside
    simp [Instruction.fieldOpcode]
    omega
  unfold Instruction.isCompressed
  rw [low]
  unfold Instruction.decode at decodes
  split at decodes
  all_goals first | (rename_i opcode; rw [opcode]; rfl) | cases decodes

/-- A parcel of its own is decoded by expansion. -/
theorem decodeFetched_parcel {parcel : Half} (compressed : Instruction.isCompressed parcel = true) :
    decodeFetched (parcel.setWidth 32) =
      (Instruction.expand parcel).map fun instruction => (instruction, 2) := by
  have parcelIs : (parcel.setWidth 32).setWidth 16 = parcel := by
    rw [BitVec.setWidth_setWidth_of_le _ (by decide), BitVec.setWidth_eq]
  unfold decodeFetched
  rw [parcelIs, if_pos compressed]

theorem decodeFetched_of_expand {parcel : Half} {instruction : Instruction}
    (expands : Instruction.expand parcel = .ok instruction) :
    decodeFetched (parcel.setWidth 32) = .ok (instruction, 2) := by
  rw [decodeFetched_parcel (isCompressed_of_expand expands), expands]
  rfl

theorem decodeFetched_of_decode {word : Word} {instruction : Instruction}
    (decodes : Instruction.decode word = .ok instruction) :
    decodeFetched word = .ok (instruction, 4) := by
  unfold decodeFetched
  rw [not_isCompressed_of_decode decodes, decodes]
  rfl

/-- A compressed instruction means what it expands to. Some word stands for the same instruction;
and with every such word, executing one or the other, which is what a machine does that has fetched
it, has the same result: the diagnostics and the bus are the same, and so is the exception, if there
is one, and the hart, except that a jump links to what is two or four bytes further on, and that an
instruction which does not jump goes on there. -/
theorem expansion_exact {parcel : Half} {instruction : Instruction}
    (expands : Instruction.expand parcel = .ok instruction) :
    (∃ word, Instruction.decode word = .ok instruction) ∧
      ∀ word, Instruction.decode word = .ok instruction → ∀ machine : Machine,
        executeFetched (parcel.setWidth 32) = execute instruction (parcel.setWidth 32) 2 ∧
          executeFetched word = execute instruction word 4 ∧
          instruction.Alike machine.hart ⟨parcel.setWidth 32, 2⟩ ⟨word, 4⟩
            ((execute instruction (parcel.setWidth 32) 2).run.run machine)
            ((execute instruction word 4).run.run machine) := by
  refine ⟨⟨instruction.encode, instruction.decode_encode⟩, fun word decodes machine => ?_⟩
  refine ⟨?_, ?_, execute_alike instruction ⟨parcel.setWidth 32, 2⟩ ⟨word, 4⟩ machine⟩
  · unfold executeFetched
    rw [decodeFetched_of_expand expands]
  · unfold executeFetched
    rw [decodeFetched_of_decode decodes]

/-- A compressed call links to what is two bytes further on, and the long one to what is four bytes
further on; all the rest is the same. -/
theorem call_expands :
    ∃ log bus, ∃ hart : Hart,
      (executeFetched 0x00002001).run.run (initial ⟨0, 0⟩ .empty) =
        ⟨(.ok (), ⟨hart.setX Reg.ra 2, bus⟩), log⟩ ∧
      (executeFetched 0x000000EF).run.run (initial ⟨0, 0⟩ .empty) =
        ⟨(.ok (), ⟨hart.setX Reg.ra 4, bus⟩), log⟩ := by
  have expands : Instruction.expand 0x2001 = .ok (.jal Reg.ra 0) := rfl
  obtain ⟨short, long, alike⟩ :=
    (expansion_exact expands).2 0x000000EF rfl (initial ⟨0, 0⟩ .empty)
  have parcelIs : (0x2001 : Half).setWidth 32 = 0x00002001 := rfl
  rw [← parcelIs, short, long]
  generalize firstRun : (execute _ _ 2).run.run _ = first at alike ⊢
  generalize secondRun : (execute _ _ 4).run.run _ = second at alike ⊢
  cases alike with
  | completed log after bus => exact ⟨log, bus, after, rfl, rfl⟩
  | failed log raised after => cases firstRun
  | refused log after => cases firstRun

end Machine

end Rv32
