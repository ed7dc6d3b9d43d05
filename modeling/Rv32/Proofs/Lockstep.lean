import Rv32.Proofs.BusEchoes
import Rv32.Proofs.FlushingRun
import Rv32.Proofs.PageWalk

/-!
# Two machines in lockstep

Two machines run in lockstep if each instruction does the same to both. That is so as long as their
harts stand in a relation that covers all an instruction can look at: `Hart.Tracks` says what that
takes of a relation between harts, and `Machine.InStep` relates machines whose harts stand in the
relation and whose buses echo each other.

`Effect.Agree` and `Attempt.Agree` compare two actions on machines in a relation: they give the same
result, or raise the same exception, and lead to machines in the relation. This passes from the
parts of an action to the whole, and so to the execution of an instruction
(`Hart.Tracks.executeNext`), whatever the relation is. Traps may lead out of it:
`Machine.cycle_agrees` leaves open what they lead to.
-/

namespace Rv32

/-! ## Actions that agree -/

/-- Two effects, one on each of two machines, give the same result and lead into the relation. -/
def Effect.AgreeAt {α : Type} (relation : Machine → Machine → Prop) (left right : Effect α)
    (first second : Machine) : Prop :=
  (right.outcome second).1 = (left.outcome first).1 ∧
    relation (left.outcome first).2 (right.outcome second).2

/-- Two effects do the same to machines in the relation. -/
def Effect.Agree {α : Type} (relation : Machine → Machine → Prop) (left right : Effect α) : Prop :=
  ∀ first second, relation first second → Effect.AgreeAt relation left right first second

/-- Two attempts, one on each of two machines, give the same result or raise the same exception, and
lead into the relation. -/
def Attempt.AgreeAt {α : Type} (relation : Machine → Machine → Prop) (left right : Attempt α)
    (first second : Machine) : Prop :=
  (right.outcome second).1 = (left.outcome first).1 ∧
    relation (left.outcome first).2 (right.outcome second).2

/-- Two attempts do the same to machines in the relation. -/
def Attempt.Agree {α : Type} (relation : Machine → Machine → Prop) (left right : Attempt α) :
    Prop :=
  ∀ first second, relation first second → Attempt.AgreeAt relation left right first second

namespace Attempt

variable {α β : Type} {relation : Machine → Machine → Prop}

/-- Two composite attempts agree if their first parts do, and the rests do for equal results. -/
theorem AgreeAt.bind {attempt attemptToo : Attempt α} {next nextToo : α → Attempt β}
    {first second : Machine} (begins : AgreeAt relation attempt attemptToo first second)
    (rest : ∀ value, Agree relation (next value) (nextToo value)) :
    AgreeAt relation (attempt >>= next) (attemptToo >>= nextToo) first second := by
  unfold AgreeAt at begins ⊢
  rw [outcome_bind, outcome_bind]
  generalize attempt.outcome first = reached at begins ⊢
  generalize attemptToo.outcome second = reachedToo at begins ⊢
  obtain ⟨result, here⟩ := reached
  obtain ⟨resultToo, there⟩ := reachedToo
  obtain ⟨same, related⟩ := begins
  cases same
  cases result with
  | error raised => exact ⟨rfl, related⟩
  | ok value => exact rest value here there related

namespace Agree

theorem pure (value : α) : Agree relation (Pure.pure value) (Pure.pure value) :=
  fun _ _ related => ⟨rfl, related⟩

theorem throw (raised : Exception) :
    Agree relation (MonadExcept.throw raised : Attempt α) (MonadExcept.throw raised) :=
  fun _ _ related => ⟨rfl, related⟩

theorem lift {effect effectToo : Effect α} (agree : Effect.Agree relation effect effectToo) :
    Agree relation (liftM effect) (liftM effectToo) := by
  intro first second related
  obtain ⟨same, after⟩ := agree first second related
  exact ⟨congrArg Except.ok same, after⟩

theorem bind {attempt attemptToo : Attempt α} {next nextToo : α → Attempt β}
    (begins : Agree relation attempt attemptToo)
    (rest : ∀ value, Agree relation (next value) (nextToo value)) :
    Agree relation (attempt >>= next) (attemptToo >>= nextToo) :=
  fun first second related => .bind (begins first second related) rest

theorem ite {condition : Prop} [Decidable condition] {yes yesToo no noToo : Attempt α}
    (agree : Agree relation yes yesToo) (otherwise : Agree relation no noToo) :
    Agree relation (if condition then yes else no) (if condition then yesToo else noToo) := by
  split
  · exact agree
  · exact otherwise

/-- What goes on from the hart may look at what the relation covers. -/
theorem getHart {next nextToo : Hart → Attempt α}
    (rest : ∀ first second : Machine, relation first second →
      AgreeAt relation (next first.hart) (nextToo second.hart) first second) :
    Agree relation (liftM Machine.getHart >>= next) (liftM Machine.getHart >>= nextToo) :=
  rest

/-- An attempt that some programs may not make. -/
theorem require {relation : Machine → Machine → Prop} (allowed : Bool) (raw : Word)
    {rest : Attempt Unit} (agree : Agree relation rest rest) :
    Agree relation (Machine.require allowed raw >>= fun _ => rest)
      (Machine.require allowed raw >>= fun _ => rest) := by
  cases allowed with
  | false => exact fun _ _ related => ⟨rfl, related⟩
  | true => exact agree

end Agree

end Attempt

/-! ## Harts that track each other -/

/-- Harts in the relation agree on all that accesses to memory look at, and stay in it when the same
is done to both. -/
structure Hart.Tracks (harts : Hart → Hart → Prop) : Prop where
  registers : ∀ {first second}, harts first second → second.registers = first.registers
  tlb : ∀ {first second}, harts first second → second.tlb = first.tlb
  reservation : ∀ {first second}, harts first second → second.reservation = first.reservation
  context : ∀ {first second}, harts first second → ∀ kind,
    second.translationContext kind = first.translationContext kind
  withRegisters : ∀ {first second}, harts first second → ∀ registers,
    harts { first with registers := registers } { second with registers := registers }
  withTlb : ∀ {first second}, harts first second → ∀ tlb,
    harts { first with tlb := tlb } { second with tlb := tlb }
  withReservation : ∀ {first second}, harts first second → ∀ reservation,
    harts { first with reservation := reservation } { second with reservation := reservation }

/-- Harts in the relation also agree on all that the other instructions look at. `reaches` holds of
the registers that programs reach. -/
structure Hart.TracksSystem (harts : Hart → Hart → Prop) (reaches : Csr → Prop) : Prop
    extends Hart.Tracks harts where
  privilege : ∀ {first second}, harts first second → second.privilege = first.privilege
  locks : ∀ {first second}, harts first second →
    second.status.tsr = first.status.tsr ∧ second.status.tw = first.status.tw ∧
      second.status.tvm = first.status.tvm
  interrupts : ∀ {first second}, harts first second → second.interrupts = first.interrupts
  checkCsr : ∀ {first second}, harts first second → ∀ address writes,
    second.checkCsr address writes = first.checkCsr address writes
  reached : ∀ {first second}, harts first second → ∀ {address writes register},
    first.checkCsr address writes = .ok () → Csr.ofAddress? address = some register →
    reaches register
  readCsr : ∀ {first second}, harts first second → ∀ {register}, reaches register →
    second.readCsr register = first.readCsr register
  writeCsr : ∀ {first second}, harts first second → ∀ {register}, reaches register →
    ∀ value, harts (first.writeCsr register value).value (second.writeCsr register value).value
  returnFromSupervisor : ∀ {first second}, harts first second →
    harts first.returnFromSupervisor.value second.returnFromSupervisor.value
  returnFromMachine : ∀ {first second}, harts first second → first.privilege = .machine →
    harts first.returnFromMachine.value second.returnFromMachine.value
  halt : ∀ {first second}, harts first second →
    harts { first with halted := true } { second with halted := true }

namespace Machine

/-- The harts stand in the relation, and the buses echo each other. -/
structure InStep (harts : Hart → Hart → Prop) (left right : List DeviceAccess)
    (first second : Machine) : Prop where
  hart : harts first.hart second.hart
  bus : first.bus.Echoes left right second.bus

namespace InStep

variable {harts : Hart → Hart → Prop} {left right : List DeviceAccess} {first second : Machine}
  (related : InStep harts left right first second)

include related

/-- The machines stay in step when their harts are changed within the relation. -/
theorem withHart {hart hartToo : Hart} (changed : harts hart hartToo) :
    InStep harts left right { first with hart := hart } { second with hart := hartToo } :=
  ⟨changed, related.bus⟩

/-- The machines stay in step when their buses go on to echo each other. -/
theorem withBus {bus busToo : Bus} (changed : bus.Echoes left right busToo) :
    InStep harts left right { first with bus := bus } { second with bus := busToo } :=
  ⟨related.hart, changed⟩

omit related

/-- A change of the hart that keeps the relation. -/
theorem modifyHart {change : Hart → Hart}
    (keeps : ∀ first second, harts first second → harts (change first) (change second)) :
    Effect.Agree (InStep harts left right) (modifyHart change) (modifyHart change) := by
  intro first second related
  unfold Effect.AgreeAt
  rw [Effect.outcome_modifyHart, Effect.outcome_modifyHart]
  exact ⟨rfl, related.withHart (keeps _ _ related.hart)⟩

/-- A reported change of the hart that keeps the relation. -/
theorem updateHart {change : Hart → Logged Hart}
    (keeps : ∀ first second, harts first second →
      harts (change first).value (change second).value) :
    Effect.Agree (InStep harts left right) (updateHart change) (updateHart change) := by
  intro first second related
  unfold Effect.AgreeAt
  rw [Effect.outcome_updateHart, Effect.outcome_updateHart]
  exact ⟨rfl, related.withHart (keeps _ _ related.hart)⟩

end InStep

end Machine

namespace Hart.Tracks

open Machine

variable {harts : Hart → Hart → Prop} {left right : List DeviceAccess}

/-! ## Accesses to memory -/

theorem loadPhysical (address : Word) (width : Width) :
    Effect.Agree (InStep harts left right) (loadPhysical address width)
      (loadPhysical address width) := by
  intro first second related
  obtain ⟨value, after⟩ := related.bus.load address width
  exact ⟨value, related.withBus after⟩

theorem findRegion (address : Word) :
    Effect.Agree (InStep harts left right) (findRegion address) (findRegion address) :=
  fun _ _ related => ⟨related.bus.findRegion address, related⟩

theorem markUsed (location : Word) (entry : PageTableEntry) (kind : AccessKind) :
    Effect.Agree (InStep harts left right) (markUsed location entry kind)
      (markUsed location entry kind) := by
  intro first second related
  unfold Effect.AgreeAt Machine.markUsed
  rw [Effect.outcome_ite, Effect.outcome_ite]
  split
  · exact ⟨rfl, related⟩
  · exact ⟨rfl, related.withBus (related.bus.store ..)⟩

theorem readLocated (physical : Word) (region? : Option Region) (width : Width) :
    Effect.Agree (InStep harts left right) (readLocated physical region? width)
      (readLocated physical region? width) := by
  intro first second related
  cases region? with
  | none => exact ⟨rfl, related⟩
  | some region =>
      obtain ⟨value, after⟩ := related.bus.read region (region.range.offsetOf physical) width
      exact ⟨value, related.withBus after⟩

theorem writeLocated (physical : Word) (region? : Option Region) (value : Word) (width : Width) :
    Effect.Agree (InStep harts left right) (writeLocated physical region? value width)
      (writeLocated physical region? value width) := by
  intro first second related
  cases region? with
  | none => exact ⟨rfl, related⟩
  | some region =>
      have written := related.bus.write region (region.range.offsetOf physical)
        (value &&& width.mask) width
      unfold Effect.AgreeAt Machine.writeLocated
      rw [Effect.outcome_modifyBus, Effect.outcome_modifyBus]
      refine ⟨rfl, related.withBus ?_⟩
      dsimp only
      split
      · exact written.markDirty ..
      · exact written

variable (tracks : Hart.Tracks harts)

include tracks

theorem cache (address physical : Word) (region : Region) (kind : AccessKind) :
    Effect.Agree (InStep harts left right)
      (modifyHart fun hart => { hart with tlb := hart.tlb.insert address physical region kind })
      (modifyHart fun hart =>
        { hart with tlb := hart.tlb.insert address physical region kind }) := by
  refine InStep.modifyHart fun first second related => ?_
  rw [tracks.tlb related]
  exact tracks.withTlb related _

theorem reserve (reservation : Option Word) :
    Effect.Agree (InStep harts left right)
      (modifyHart fun hart => { hart with reservation := reservation })
      (modifyHart fun hart => { hart with reservation := reservation }) :=
  InStep.modifyHart fun _ _ related => tracks.withReservation related _

theorem changeRegisters (change : Registers → Registers) :
    Effect.Agree (InStep harts left right)
      (modifyHart fun hart => { hart with registers := change hart.registers })
      (modifyHart fun hart => { hart with registers := change hart.registers }) := by
  refine InStep.modifyHart fun first second related => ?_
  rw [tracks.registers related]
  exact tracks.withRegisters related _

theorem finish (rd : Reg) (value length : Word) :
    Effect.Agree (InStep harts left right) (finish rd value length) (finish rd value length) :=
  tracks.changeRegisters fun registers =>
    { registers.set rd value with pc := (registers.set rd value).pc + length }

theorem advance (length : Word) :
    Effect.Agree (InStep harts left right) (modifyHart fun hart => hart.advance length)
      (modifyHart fun hart => hart.advance length) :=
  tracks.changeRegisters fun registers => { registers with pc := registers.pc + length }

theorem link (rd : Reg) (length target : Word) :
    Effect.Agree (InStep harts left right)
      (modifyHart fun hart => (hart.setX rd (hart.pc + length)).withPc target)
      (modifyHart fun hart => (hart.setX rd (hart.pc + length)).withPc target) :=
  tracks.changeRegisters fun registers =>
    { registers.set rd (registers.pc + length) with pc := target }

theorem walk (address : Word) (kind : AccessKind) (levels : Nat) (table : Word) :
    Attempt.Agree (InStep harts left right) (walk address kind levels table)
      (walk address kind levels table) := by
  induction levels generalizing table with
  | zero => exact .throw _
  | succ level ih =>
      rw [Machine.walk]
      refine .bind (.lift (loadPhysical _ _)) fun bits => .ite (.throw _) (.ite (ih _) ?_)
      refine .getHart fun first second related => ?_
      rw [permits_eq_of_context (tracks.context related.hart kind)]
      refine Attempt.Agree.ite (.throw _) ?_ first second related
      exact .bind (.lift (markUsed _ _ _)) fun _ => .pure _

theorem translate (address : Word) (kind : AccessKind) :
    Attempt.Agree (InStep harts left right) (translate address kind) (translate address kind) := by
  refine .getHart fun first second related => ?_
  have context := tracks.context related.hart kind
  have bypasses := bypasses_iff_of_context context
  have root := rootTable_eq_of_context context
  unfold Bypasses at bypasses
  unfold rootTable at root
  simp only [bypasses, root]
  exact Attempt.Agree.ite (.pure _) (tracks.walk _ _ _ _) first second related

theorem locate (address : Word) (kind : AccessKind) :
    Attempt.Agree (InStep harts left right) (locate address kind) (locate address kind) := by
  refine .getHart fun first second related => ?_
  rw [tracks.tlb related.hart]
  cases first.hart.tlb.lookup address kind with
  | some place => exact Attempt.Agree.pure _ first second related
  | none =>
      refine Attempt.AgreeAt.bind (tracks.translate address kind first second related)
        fun physical => .bind (.lift (findRegion physical)) fun region? => ?_
      cases region? with
      | none => exact .pure _
      | some region =>
          refine .bind (.lift (tracks.cache address physical region kind)) fun _ => .pure _

/-- Accesses locate their address first, unless it is refused. -/
theorem located {α : Type} {refused : Prop} [Decidable refused] {refusal : Exception}
    {address : Word} {kind : AccessKind} {rest : Word × Option Region → Attempt α}
    (agree : ∀ place, Attempt.Agree (InStep harts left right) (rest place) (rest place)) :
    Attempt.Agree (InStep harts left right)
      (do
        if refused then throw refusal
        let place ← Machine.locate address kind
        rest place)
      (do
        if refused then throw refusal
        let place ← Machine.locate address kind
        rest place) := by
  refine .ite ?_ (.bind (tracks.locate address kind) agree)
  exact fun _ _ related => ⟨rfl, related⟩

theorem load (address : Word) (width : Width) :
    Attempt.Agree (InStep harts left right) (load address width) (load address width) :=
  tracks.located fun _ => .lift (readLocated _ _ _)

theorem store (address value : Word) (width : Width) :
    Attempt.Agree (InStep harts left right) (store address value width)
      (store address value width) :=
  tracks.located fun _ => .lift (writeLocated _ _ _ _)

theorem loadReserved (address : Word) :
    Attempt.Agree (InStep harts left right) (loadReserved address) (loadReserved address) :=
  tracks.located fun _ => .bind (.lift (tracks.reserve _)) fun _ => .lift (readLocated _ _ _)

theorem storeConditional (address value : Word) :
    Attempt.Agree (InStep harts left right) (storeConditional address value)
      (storeConditional address value) := by
  refine .getHart fun first second related => ?_
  rw [tracks.reservation related.hart]
  refine Attempt.Agree.bind (.lift (tracks.reserve none)) (fun _ => ?_) first second related
  refine tracks.located fun _ => .ite ?_ (.pure _)
  exact .bind (.lift (writeLocated _ _ _ _)) fun _ => .pure _

theorem atomicUpdate (address : Word) (change : Word → Word) :
    Attempt.Agree (InStep harts left right) (atomicUpdate address change)
      (atomicUpdate address change) := by
  refine tracks.located fun _ => .bind (.lift (readLocated _ _ _)) fun old => ?_
  exact .bind (.lift (writeLocated _ _ _ _)) fun _ => .pure _

theorem fetchParcel (address : Word) :
    Attempt.Agree (InStep harts left right) (fetchParcel address) (fetchParcel address) := by
  refine .bind (tracks.locate address .fetch) fun place => ?_
  rcases place with ⟨physical, _ | region⟩
  · exact .throw _
  · refine .ite (.bind (.lift ?_) fun value => .pure _) (.throw _)
    exact readLocated physical (some region) .half

theorem fetch : Attempt.Agree (InStep harts left right) fetch fetch := by
  refine .getHart fun first second related => ?_
  have pc : second.hart.pc = first.hart.pc := congrArg Registers.pc (tracks.registers related.hart)
  rw [pc]
  refine Attempt.Agree.ite (.throw _) ?_ first second related
  refine .bind (tracks.fetchParcel _) fun low => .ite (.pure _) ?_
  exact .bind (tracks.fetchParcel _) fun high => .pure _

end Hart.Tracks

namespace Hart.TracksSystem

open Machine

variable {harts : Hart → Hart → Prop} {reaches : Csr → Prop} {left right : List DeviceAccess}
  (system : Hart.TracksSystem harts reaches)

include system

/-! ## Instructions -/

theorem accessCsr (rd : Reg) (address : CsrAddress) (reads writes : Bool) (change : Word → Word)
    (raw length : Word) :
    Attempt.Agree (InStep harts left right)
      (accessCsr rd address reads writes change raw length)
      (accessCsr rd address reads writes change raw length) := by
  refine .getHart fun first second related => ?_
  have refused : Attempt.AgreeAt (InStep harts left right)
      (throw (.illegalInstruction raw) : Attempt Unit) (throw (.illegalInstruction raw))
      first second := Attempt.Agree.throw _ first second related
  dsimp only
  rw [system.checkCsr related.hart]
  generalize found : Csr.ofAddress? address = register?
  cases allowed : first.hart.checkCsr address writes with
  | error refusal => exact refused
  | ok granted =>
      cases register? with
      | none => exact refused
      | some register =>
          have reached := system.reached related.hart allowed found
          have finished : ∀ value, Attempt.Agree (InStep harts left right)
              (liftM (Machine.finish rd value length)) (liftM (Machine.finish rd value length)) :=
            fun value => .lift (system.finish rd value length)
          dsimp only
          rw [system.readCsr related.hart reached]
          refine Attempt.Agree.ite (.bind (.lift ?_) fun _ => finished _) (finished _) first second
            related
          exact InStep.updateHart fun _ _ related => system.writeCsr related reached _

theorem waitForInterrupt (length : Word) :
    Effect.Agree (InStep harts left right) (waitForInterrupt length) (waitForInterrupt length) := by
  intro first second related
  have advanced : Effect.Agree (InStep harts left right)
      (modifyHart fun hart => hart.advance length) (modifyHart fun hart => hart.advance length) :=
    system.advance length
  have halted := related.withHart (system.halt related.hart)
  unfold Machine.waitForInterrupt Effect.AgreeAt
  rw [Effect.outcome_bind, Effect.outcome_bind, Effect.outcome_getHart, Effect.outcome_getHart]
  dsimp only
  rw [system.interrupts related.hart, Effect.outcome_ite, Effect.outcome_ite, Effect.outcome_ite,
    Effect.outcome_ite]
  split
  · split
    · exact advanced _ _ halted
    · exact advanced _ _ halted
  · exact advanced _ _ related

theorem execute (instruction : Instruction) (raw length : Word) :
    Attempt.Agree (InStep harts left right) (execute instruction raw length)
      (execute instruction raw length) := by
  refine .getHart fun first second related => ?_
  have registers := system.registers related.hart
  have x : ∀ register, second.hart.x register = first.hart.x register := fun register =>
    congrArg (Registers.get · register) registers
  have pc : second.hart.pc = first.hart.pc := congrArg Registers.pc registers
  obtain ⟨tsr, tw, tvm⟩ := system.locks related.hart
  have privilege := system.privilege related.hart
  have allows : ∀ trapped, second.hart.allowsSupervisor trapped =
      first.hart.allowsSupervisor trapped := by
    intro trapped
    unfold Hart.allowsSupervisor
    rw [privilege]
  have finished : ∀ rd value, Attempt.Agree (InStep harts left right)
      (liftM (Machine.finish rd value length)) (liftM (Machine.finish rd value length)) :=
    fun rd value => .lift (system.finish rd value length)
  have advanced : ∀ distance, Attempt.Agree (InStep harts left right)
      (liftM (modifyHart fun hart => hart.advance distance))
      (liftM (modifyHart fun hart => hart.advance distance)) :=
    fun distance => .lift (system.advance distance)
  simp only [x, pc, privilege, tsr, tw, tvm, allows]
  cases instruction with
  | opImm op rd rs1 imm => exact finished _ _ first second related
  | shiftImm op rd rs1 shamt => exact finished _ _ first second related
  | auipc rd imm => exact finished _ _ first second related
  | lui rd imm => exact finished _ _ first second related
  | opReg op rd rs1 rs2 => exact finished _ _ first second related
  | jal rd offset => exact Attempt.Agree.lift (system.link _ _ _) first second related
  | jalr rd rs1 offset => exact Attempt.Agree.lift (system.link _ _ _) first second related
  | branch condition rs1 rs2 offset => exact advanced _ first second related
  | load op rd rs1 offset =>
      exact Attempt.Agree.bind (system.load _ _) (fun _ => finished _ _) first second related
  | store width rs2 rs1 offset =>
      exact Attempt.Agree.bind (system.store _ _ _) (fun _ => advanced _) first second related
  | fence predecessor successor => exact advanced _ first second related
  | fenceI => exact advanced _ first second related
  | csr op rd number rs1 => exact system.accessCsr _ _ _ _ _ _ _ first second related
  | csrImm op rd number imm => exact system.accessCsr _ _ _ _ _ _ _ first second related
  | loadReserved rd rs1 =>
      exact Attempt.Agree.bind (system.loadReserved _) (fun _ => finished _ _) first second related
  | storeConditional rd rs1 rs2 =>
      exact Attempt.Agree.bind (system.storeConditional _ _) (fun _ => finished _ _) first second
        related
  | amo op rd rs1 rs2 =>
      exact Attempt.Agree.bind (system.atomicUpdate _ _) (fun _ => finished _ _) first second
        related
  | ecall => exact Attempt.Agree.throw _ first second related
  | ebreak => exact Attempt.Agree.throw _ first second related
  | sret =>
      refine Attempt.Agree.require _ raw (.lift ?_) first second related
      exact InStep.updateHart fun _ _ related => system.returnFromSupervisor related
  | mret =>
      by_cases top : first.hart.privilege = .machine
      · rw [decide_eq_true top]
        exact ⟨rfl, related.withHart (system.returnFromMachine related.hart top)⟩
      · rw [decide_eq_false top]
        exact ⟨rfl, related⟩
  | wfi =>
      exact Attempt.Agree.require _ raw (.lift (system.waitForInterrupt length)) first second
        related
  | sfenceVma rs1 rs2 =>
      refine Attempt.Agree.require _ raw (.bind (.lift ?_) fun _ => advanced _) first second related
      exact InStep.updateHart fun _ _ related => system.withTlb related .empty

theorem executeFetched (raw : Word) :
    Attempt.Agree (InStep harts left right) (executeFetched raw) (executeFetched raw) := by
  unfold Machine.executeFetched
  cases decodeFetched raw with
  | error failure => exact .throw _
  | ok decoded => exact system.execute decoded.1 raw decoded.2

/-- The next instruction does the same to both machines. -/
theorem executeNext : Attempt.Agree (InStep harts left right) executeNext executeNext :=
  .bind system.fetch fun raw => system.executeFetched raw

end Hart.TracksSystem

/-! ## Turns and runs -/

namespace Machine

section Runs

variable {relation later : Machine → Machine → Prop}

/-- A turn does the same to machines that take the same interrupts. Where it enters a trap, that may
lead out of the relation. -/
theorem cycle_agrees
    (interrupts : ∀ first second, relation first second →
      second.hart.nextInterrupt = first.hart.nextInterrupt)
    (counts : ∀ first second, relation first second → relation first.counted second.counted)
    (executes : Attempt.Agree relation executeNext executeNext)
    (completes : ∀ first second, relation first second → later first second)
    (traps : ∀ first second, relation first second → ∀ cause,
      later (first.trapped cause) (second.trapped cause))
    {first second : Machine} (related : relation first second) :
    (cycle.outcome second).1 = (cycle.outcome first).1 ∧
      later (cycle.outcome first).2 (cycle.outcome second).2 := by
  rw [← cycleBy_executeNext, cycleBy_outcome, cycleBy_outcome, interrupts _ _ related]
  cases first.hart.nextInterrupt with
  | some interrupt => exact ⟨rfl, traps _ _ related _⟩
  | none =>
      have ran := executes _ _ (counts _ _ related)
      unfold Attempt.AgreeAt at ran
      dsimp only
      generalize executeNext.outcome first.counted = here at ran ⊢
      generalize executeNext.outcome second.counted = there at ran ⊢
      obtain ⟨result, after⟩ := here
      obtain ⟨resultToo, afterToo⟩ := there
      obtain ⟨same, stays⟩ := ran
      cases same
      cases result with
      | ok done => exact ⟨rfl, completes _ _ stays⟩
      | error raised => exact ⟨rfl, traps _ _ stays _⟩

/-- A run does the same to machines for which each of its turns does. -/
theorem run_agrees
    (halted : ∀ first second, relation first second → second.hart.halted = first.hart.halted)
    (idles : ∀ first second, relation first second → ∀ cycles,
      relation (first.idle cycles) (second.idle cycles))
    (turns : ∀ first second, relation first second →
      (cycle.outcome second).1 = (cycle.outcome first).1 ∧
        relation (cycle.outcome first).2 (cycle.outcome second).2)
    {first second : Machine} (related : relation first second) (budget : Nat) :
    relation (first.run budget).value (second.run budget).value := by
  rw [← runBy_eq, ← runBy_eq]
  -- A turn leaves less of the budget, by one cycle or by two.
  induction budget using Nat.strongRecOn generalizing first second with
  | ind budget ih =>
      cases budget with
      | zero => exact related
      | succ budget =>
          have same := halted _ _ related
          cases waits : first.hart.halted with
          | true =>
              rw [runBy_halted waits, runBy_halted (same.trans waits)]
              exact idles _ _ related _
          | false =>
              obtain ⟨cost, stays⟩ := turns _ _ related
              rw [runBy_turn waits, runBy_turn (same.trans waits), cycleBy_executeNext, cost]
              exact ih _ (Nat.lt_succ_of_le (Cost.left_le _ _)) stays

end Runs

end Machine

end Rv32
