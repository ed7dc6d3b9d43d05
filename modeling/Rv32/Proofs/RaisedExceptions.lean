import Rv32.Proofs.Retire

/-!
# The exceptions that instructions raise

`Attempt.RaisesOnly` bounds the exceptions that an attempt can end with, whatever machine it starts
from. Bounds pass from the parts of an attempt to the whole, so that each access raises what its
alignment check and its translation raise. `Instruction.CanRaise` lists the exceptions of every
instruction, and `Machine.execute_raisesOnly` shows that no execution raises another one. What
fetching raises depends on the program counter (`Machine.fetch_raises`).
-/

namespace Rv32

/-- The exception raised when the address of such an access is not aligned. -/
def AccessKind.misaligned (kind : AccessKind) (address : Word) : Exception :=
  match kind with
  | fetch => .instructionAddressMisaligned address
  | load => .loadAddressMisaligned address
  | store => .storeAddressMisaligned address

namespace Instruction

/-- How an instruction uses memory, if it does. -/
def access? : Instruction → Option AccessKind
  | .load .. | .loadReserved .. => some .load
  | .store .. | .storeConditional .. | .amo .. => some .store
  | _ => none

/-- The exceptions that an instruction can raise when it is executed. What is not allowed at the
level of the hart is reported as the bits that were fetched. -/
inductive CanRaise (instruction : Instruction) (raw : Word) : Exception → Prop
  | misaligned {kind : AccessKind} (accesses : instruction.access? = some kind)
      (address : Word) : instruction.CanRaise raw (kind.misaligned address)
  | pageFault {kind : AccessKind} (accesses : instruction.access? = some kind)
      (address : Word) : instruction.CanRaise raw (kind.pageFault address)
  | call (isCall : instruction = .ecall) (level : Privilege) :
      instruction.CanRaise raw (.environmentCall level)
  | breakpoint (isBreak : instruction = .ebreak) : instruction.CanRaise raw .breakpoint
  | refused (isSystem : instruction.isSystem = true) :
      instruction.CanRaise raw (.illegalInstruction raw)

theorem access?_ne_fetch (instruction : Instruction) : instruction.access? ≠ some .fetch := by
  cases instruction <;> exact nofun

variable {instruction : Instruction} {raw : Word}

/-- No instruction finds its own target misaligned. -/
theorem CanRaise.ne_misaligned {raised : Exception} (can : instruction.CanRaise raw raised)
    (address : Word) : raised ≠ .instructionAddressMisaligned address := by
  cases can with
  | @misaligned kind accesses _ =>
      cases kind with
      | fetch => exact absurd accesses instruction.access?_ne_fetch
      | load => exact nofun
      | store => exact nofun
  | @pageFault kind _ _ => cases kind <;> exact nofun
  | call _ level => cases level <;> exact nofun
  | breakpoint _ => exact nofun
  | refused _ => exact nofun

/-- Only the instructions that reach beyond registers and memory are ever refused. -/
theorem CanRaise.ne_illegal {raised : Exception} (can : instruction.CanRaise raw raised)
    (plain : instruction.isSystem = false) (bits : Word) : raised ≠ .illegalInstruction bits := by
  cases can with
  | @misaligned kind _ _ => cases kind <;> exact nofun
  | @pageFault kind _ _ => cases kind <;> exact nofun
  | call _ level => cases level <;> exact nofun
  | breakpoint _ => exact nofun
  | refused isSystem =>
      rw [plain] at isSystem
      cases isSystem

end Instruction

/-! ## Bounds on the exceptions of an attempt -/

/-- From whatever machine the attempt starts, it ends with an allowed exception if with any. -/
def Attempt.RaisesOnly {α : Type} (allowed : Exception → Prop) (attempt : Attempt α) : Prop :=
  ∀ machine raised after, attempt.outcome machine = (.error raised, after) → allowed raised

namespace Attempt.RaisesOnly

variable {α β : Type} {allowed : Exception → Prop}

theorem pure (value : α) : RaisesOnly allowed (Pure.pure value) := by
  intro machine raised after ended
  cases ended

theorem throw {raised : Exception} (isAllowed : allowed raised) :
    RaisesOnly allowed (MonadExcept.throw raised : Attempt α) := by
  intro machine other after ended
  cases ended
  exact isAllowed

theorem lift (effect : Effect α) : RaisesOnly allowed (liftM effect : Attempt α) := by
  intro machine raised after ended
  cases ended

theorem bind {attempt : Attempt α} {next : α → Attempt β} (first : attempt.RaisesOnly allowed)
    (rest : ∀ value, (next value).RaisesOnly allowed) : RaisesOnly allowed (attempt >>= next) := by
  intro machine raised after ended
  rcases outcome_bind_eq_error.1 ended with failed | ⟨value, middle, -, failed⟩
  · exact first machine raised after failed
  · exact rest value middle raised after failed

theorem ite {condition : Prop} [Decidable condition] {yes no : Attempt α}
    (first : yes.RaisesOnly allowed) (second : no.RaisesOnly allowed) :
    RaisesOnly allowed (if condition then yes else no) := by
  split
  · exact first
  · exact second

/-- An attempt that is refused under some condition. -/
theorem guard {condition : Prop} [Decidable condition] {raised : Exception} {rest : Attempt α}
    (isAllowed : allowed raised) (bound : rest.RaisesOnly allowed) :
    RaisesOnly allowed (do
      if condition then MonadExcept.throw raised
      rest) := by
  refine .ite ?_ bound
  intro machine other after ended
  cases ended
  exact isAllowed

end Attempt.RaisesOnly

namespace Machine

variable {allowed : Exception → Prop}

/-! ## Accesses -/

section Located

variable {address : Word} {kind : AccessKind} (fault : allowed (kind.pageFault address))

include fault

theorem walk_raisesOnly (levels : Nat) (table : Word) :
    (walk address kind levels table).RaisesOnly allowed := by
  induction levels generalizing table with
  | zero => exact .throw fault
  | succ level ih =>
      rw [walk]
      refine .bind (.lift _) fun bits => .ite (.throw fault) (.ite (ih _) ?_)
      refine .bind (.lift _) fun hart => .ite (.throw fault) ?_
      exact .bind (.lift _) fun _ => .pure _

theorem translate_raisesOnly : (translate address kind).RaisesOnly allowed :=
  .bind (.lift _) fun _ => .ite (.pure _) (walk_raisesOnly fault _ _)

theorem locate_raisesOnly : (locate address kind).RaisesOnly allowed := by
  refine .bind (.lift _) fun hart => ?_
  split
  · exact .pure _
  · refine .bind (translate_raisesOnly fault) fun physical => .bind (.lift _) fun region? => ?_
    split
    · exact .bind (.lift _) fun _ => .pure _
    · exact .pure _

end Located

section Fetched

variable {address : Word} (fault : allowed (.instructionPageFault address))
  (refusal : allowed (.instructionAccessFault address))

include fault refusal

theorem fetchParcel_raisesOnly : (fetchParcel address).RaisesOnly allowed := by
  refine .bind (locate_raisesOnly fault) fun place => ?_
  rcases place with ⟨physical, region | region⟩
  · exact .throw refusal
  · exact .ite (.bind (.lift _) fun _ => .pure _) (.throw refusal)

end Fetched

section Loaded

variable {address : Word} (misaligned : allowed (AccessKind.load.misaligned address))
  (fault : allowed (AccessKind.load.pageFault address))

include misaligned fault

theorem load_raisesOnly (width : Width) : (load address width).RaisesOnly allowed :=
  .guard misaligned (.bind (locate_raisesOnly fault) fun _ => .lift _)

theorem loadReserved_raisesOnly : (loadReserved address).RaisesOnly allowed :=
  .guard misaligned
    (.bind (locate_raisesOnly fault) fun _ => .bind (.lift _) fun _ => .lift _)

end Loaded

section Stored

variable {address : Word} (misaligned : allowed (AccessKind.store.misaligned address))
  (fault : allowed (AccessKind.store.pageFault address))

include misaligned fault

theorem store_raisesOnly (value : Word) (width : Width) :
    (store address value width).RaisesOnly allowed :=
  .guard misaligned (.bind (locate_raisesOnly fault) fun _ => .lift _)

theorem storeConditional_raisesOnly (value : Word) :
    (storeConditional address value).RaisesOnly allowed := by
  refine .bind (.lift _) fun _ => .bind (.lift _) fun _ => .guard misaligned ?_
  refine .bind (locate_raisesOnly fault) fun _ => .ite ?_ (.pure _)
  exact .bind (.lift _) fun _ => .pure _

theorem atomicUpdate_raisesOnly (change : Word → Word) :
    (atomicUpdate address change).RaisesOnly allowed := by
  refine .guard misaligned (.bind (locate_raisesOnly fault) fun _ => ?_)
  exact .bind (.lift _) fun _ => .bind (.lift _) fun _ => .pure _

end Stored

/-! ## Instructions -/

section Refused

variable {raw : Word} (refusal : allowed (.illegalInstruction raw))

include refusal

theorem require_raisesOnly (permitted : Bool) : (require permitted raw).RaisesOnly allowed :=
  .ite (.pure _) (.throw refusal)

theorem accessCsr_raisesOnly (rd : Reg) (address : CsrAddress) (reads writes : Bool)
    (change : Word → Word) (length : Word) :
    (accessCsr rd address reads writes change raw length).RaisesOnly allowed := by
  refine .bind (.lift _) fun hart => ?_
  split
  · exact .ite (.bind (.lift _) fun _ => .lift _) (.lift _)
  · exact .throw refusal

end Refused

/-- An instruction raises no exceptions but its own. -/
theorem execute_raisesOnly (instruction : Instruction) (raw length : Word) :
    (execute instruction raw length).RaisesOnly (instruction.CanRaise raw) := by
  refine .bind (.lift _) fun hart => ?_
  cases instruction with
  | load op rd rs1 offset =>
      exact .bind (load_raisesOnly (.misaligned rfl _) (.pageFault rfl _) _) fun _ => .lift _
  | store width rs2 rs1 offset =>
      exact .bind (store_raisesOnly (.misaligned rfl _) (.pageFault rfl _) _ _) fun _ => .lift _
  | loadReserved rd rs1 =>
      exact .bind (loadReserved_raisesOnly (.misaligned rfl _) (.pageFault rfl _)) fun _ => .lift _
  | storeConditional rd rs1 rs2 =>
      refine .bind (storeConditional_raisesOnly ?_ ?_ _) fun _ => .lift _
      · exact .misaligned rfl _
      · exact .pageFault rfl _
  | amo op rd rs1 rs2 =>
      refine .bind (atomicUpdate_raisesOnly ?_ ?_ _) fun _ => .lift _
      · exact .misaligned rfl _
      · exact .pageFault rfl _
  | csr op rd number rs1 => exact accessCsr_raisesOnly (.refused rfl) _ _ _ _ _ _
  | csrImm op rd number imm => exact accessCsr_raisesOnly (.refused rfl) _ _ _ _ _ _
  | ecall => exact .throw (.call rfl _)
  | ebreak => exact .throw (.breakpoint rfl)
  | sret => exact .bind (require_raisesOnly (.refused rfl) _) fun _ => .lift _
  | mret => exact .bind (require_raisesOnly (.refused rfl) _) fun _ => .lift _
  | wfi => exact .bind (require_raisesOnly (.refused rfl) _) fun _ => .lift _
  | sfenceVma rs1 rs2 =>
      refine .bind (require_raisesOnly (.refused rfl) _) fun _ => ?_
      exact .bind (.lift _) fun _ => .lift _
  | _ => exact .lift _

/-- What was fetched is refused as a whole, or raises the exceptions of the instruction it is. -/
theorem executeFetched_raisesOnly (raw : Word) :
    (executeFetched raw).RaisesOnly fun raised =>
      raised = .illegalInstruction raw ∨
        ∃ instruction, (∃ length, decodeFetched raw = .ok (instruction, length)) ∧
          instruction.CanRaise raw raised := by
  unfold executeFetched
  split
  · rename_i instruction length decoded
    intro machine raised after failed
    have can := execute_raisesOnly instruction raw length machine raised after failed
    exact .inr ⟨instruction, ⟨length, decoded⟩, can⟩
  · exact .throw (.inl rfl)

/-! ## Fetching -/

/-- The exceptions that fetching raises at an address which is aligned. -/
inductive FetchRaises : Exception → Prop
  | pageFault (address : Word) : FetchRaises (.instructionPageFault address)
  | accessFault (address : Word) : FetchRaises (.instructionAccessFault address)

theorem fetch_raises {machine after : Machine} {raised : Exception}
    (aligned : Width.half.Aligned machine.hart.pc)
    (failed : fetch.outcome machine = (.error raised, after)) : FetchRaises raised := by
  have parcel (address : Word) : (fetchParcel address).RaisesOnly FetchRaises :=
    fetchParcel_raisesOnly (.pageFault address) (.accessFault address)
  unfold fetch at failed
  rw [Attempt.outcome_lift_bind, Effect.outcome_getHart] at failed
  dsimp only at failed
  rw [Attempt.outcome_ite, if_neg (not_not_intro aligned)] at failed
  have rest : Attempt.RaisesOnly FetchRaises (do
      let low ← fetchParcel machine.hart.pc
      if Instruction.isCompressed low then pure (low.setWidth 32)
      else
        let high ← fetchParcel (machine.hart.pc + 2)
        pure (high ++ low)) :=
    .bind (parcel _) fun _ => .ite (.pure _) (.bind (parcel _) fun _ => .pure _)
  exact rest machine raised after failed

end Machine

end Rv32
