import Rv32.Proofs.HartFrame

/-!
# What one turn can do

An instruction that completes retires in one of few ways, which `Hart.Retires` lists: most touch
registers, caches and the reservation alone; only the instructions on control and status registers
and the privileged ones reach further. An instruction that fails has done no more than its
translations did (`Machine.execute_error`). `Machine.cycle_turns` puts these together: a turn takes
an interrupt, completes an instruction, or enters a trap for the exception that one raised.
-/

namespace Rv32

namespace Instruction

/-- The instructions that read and write a control and status register. -/
def isCsr : Instruction → Bool
  | .csr .. | .csrImm .. => true
  | _ => false

/-- The instructions that, when they complete, reach beyond registers and memory. -/
def isSystem : Instruction → Bool
  | .csr .. | .csrImm .. | .sret | .mret | .wfi | .sfenceVma .. => true
  | _ => false

end Instruction

namespace Hart

/-- The ways in which an instruction retires, with the hart before and after it. -/
inductive Retires (before : Hart) : Instruction → Hart → Prop
  | ordinary {instruction : Instruction} {after : Hart} (plain : instruction.isSystem = false)
      (same : before.EqModProgram after) : before.Retires instruction after
  | csr {instruction : Instruction} {address : CsrAddress} {register : Csr} {writes : Bool}
      {rd : Reg} {old length : Word} (value : Word) (isCsr : instruction.isCsr = true)
      (allowed : before.checkCsr address writes = .ok ())
      (found : Csr.ofAddress? address = some register) :
      before.Retires instruction
        (((if writes then (before.writeCsr register value).value else before).setX rd old).advance
          length)
  | sret (allowed : before.allowsSupervisor before.status.tsr = true) :
      before.Retires .sret before.returnFromSupervisor.value
  | mret (machine : before.privilege = .machine) :
      before.Retires .mret before.returnFromMachine.value
  | wfi {length : Word} (halted : Bool)
      (allowed : before.allowsSupervisor before.status.tw = true) :
      before.Retires .wfi ({ before with halted := halted }.advance length)
  | fence {rs1 rs2 : Reg} {length : Word}
      (allowed : before.allowsSupervisor before.status.tvm = true) :
      before.Retires (.sfenceVma rs1 rs2) ({ before with tlb := .empty }.advance length)

end Hart

namespace Machine

/-- The machine without a reservation. -/
def release (machine : Machine) : Machine :=
  { machine with hart := { machine.hart with reservation := none } }

/-- The machine with one more cycle counted. -/
def counted (machine : Machine) : Machine :=
  { machine with hart := { machine.hart with mcycle := machine.hart.mcycle + 1 } }

/-- The machine in the handler of a trap. -/
def trapped (machine : Machine) (cause : Cause) : Machine :=
  { machine with hart := (machine.hart.enterTrap cause).value }

/-- The instruction at the program counter, if it can be fetched and decoded. -/
def nextInstruction (machine : Machine) : Option Instruction :=
  match (fetch.outcome machine).1 with
  | .ok raw => (decodeFetched raw).toOption.map Prod.fst
  | .error _ => none

/-! ## Instructions that complete -/

/-- An access that ends with a write of a register is ordinary. -/
theorem retires_finish {instruction : Instruction} {access : Attempt Word} {rd : Reg}
    {change : Word → Word} {length : Word} {machine after : Machine}
    (plain : instruction.isSystem = false) (accesses : access.Within HartAccessed)
    (ran : Attempt.outcome (access >>= fun value => liftM (finish rd (change value) length))
      machine = (.ok (), after)) :
    machine.hart.Retires instruction after.hart := by
  obtain ⟨value, middle, accessed, finished⟩ := Attempt.outcome_bind_eq_ok.1 ran
  have kept := accesses machine
  rw [accessed] at kept
  cases finished
  exact .ordinary plain (kept.program.trans (.setX_advance ..))

theorem retires_csr {instruction : Instruction} {rd : Reg} {address : CsrAddress}
    {reads writes : Bool} {change : Word → Word} {raw length : Word} {machine after : Machine}
    (isCsr : instruction.isCsr = true)
    (ran : (accessCsr rd address reads writes change raw length).outcome machine =
      (.ok (), after)) :
    machine.hart.Retires instruction after.hart := by
  unfold accessCsr at ran
  rw [Attempt.outcome_lift_bind, Effect.outcome_getHart] at ran
  split at ran
  · rename_i register allowed found
    cases writes with
    | false =>
        cases ran
        exact .csr 0 isCsr allowed found
    | true =>
        cases ran
        exact .csr _ isCsr allowed found
  · cases ran

/-- A privileged instruction completes only if it is allowed. -/
theorem require_bind_ok {allowed : Bool} {raw : Word} {next : Attempt Unit}
    {machine after : Machine}
    (ran : Attempt.outcome (require allowed raw >>= fun _ => next) machine = (.ok (), after)) :
    allowed = true ∧ next.outcome machine = (.ok (), after) := by
  cases allowed with
  | false => cases ran
  | true => exact ⟨rfl, ran⟩

theorem retires_wfi {length : Word} {machine : Machine}
    (allowed : machine.hart.allowsSupervisor machine.hart.status.tw = true) :
    machine.hart.Retires .wfi ((waitForInterrupt length).outcome machine).2.hart := by
  unfold waitForInterrupt
  rw [Effect.outcome_bind, Effect.outcome_getHart]
  dsimp only
  rw [Effect.outcome_ite, Effect.outcome_ite]
  split
  · split <;> exact .wfi true allowed
  · exact .wfi machine.hart.halted allowed

/-- An instruction that completes retires in one of the listed ways. -/
theorem execute_ok {instruction : Instruction} {raw length : Word} {machine after : Machine}
    (ran : (execute instruction raw length).outcome machine = (.ok (), after)) :
    machine.hart.Retires instruction after.hart := by
  unfold execute at ran
  rw [Attempt.outcome_lift_bind, Effect.outcome_getHart] at ran
  cases instruction with
  | opImm op rd rs1 imm =>
      cases ran
      exact .ordinary rfl (.setX_advance ..)
  | shiftImm op rd rs1 shamt =>
      cases ran
      exact .ordinary rfl (.setX_advance ..)
  | auipc rd imm =>
      cases ran
      exact .ordinary rfl (.setX_advance ..)
  | lui rd imm =>
      cases ran
      exact .ordinary rfl (.setX_advance ..)
  | opReg op rd rs1 rs2 =>
      cases ran
      exact .ordinary rfl (.setX_advance ..)
  | jal rd offset =>
      cases ran
      exact .ordinary rfl ⟨_, _, _, rfl⟩
  | jalr rd rs1 offset =>
      cases ran
      exact .ordinary rfl ⟨_, _, _, rfl⟩
  | branch condition rs1 rs2 offset =>
      cases ran
      exact .ordinary rfl ⟨_, _, _, rfl⟩
  | load op rd rs1 offset =>
      exact retires_finish rfl (hartAccessed_respects.load _ _) ran
  | store width rs2 rs1 offset =>
      obtain ⟨_, middle, stored, advanced⟩ := Attempt.outcome_bind_eq_ok.1 ran
      have kept := hartAccessed_respects.store (machine.hart.x rs1 + offset.signExtend 32)
        (machine.hart.x rs2) width machine
      rw [stored] at kept
      cases advanced
      exact .ordinary rfl (kept.program.trans ⟨_, _, _, rfl⟩)
  | fence predecessor successor =>
      cases ran
      exact .ordinary rfl ⟨_, _, _, rfl⟩
  | fenceI =>
      cases ran
      exact .ordinary rfl ⟨_, _, _, rfl⟩
  | csr op rd number rs1 => exact retires_csr rfl ran
  | csrImm op rd number imm => exact retires_csr rfl ran
  | loadReserved rd rs1 => exact retires_finish rfl (hartAccessed_respects.loadReserved _) ran
  | storeConditional rd rs1 rs2 =>
      obtain ⟨stored, middle, accessed, finished⟩ := Attempt.outcome_bind_eq_ok.1 ran
      have kept := hartAccessed_respects.storeConditional (machine.hart.x rs1)
        (machine.hart.x rs2) machine
      rw [accessed] at kept
      cases finished
      exact .ordinary rfl (kept.program.trans (.setX_advance ..))
  | amo op rd rs1 rs2 =>
      exact retires_finish rfl (hartAccessed_respects.atomicUpdate _ _) ran
  | ecall => cases ran
  | ebreak => cases ran
  | sret =>
      obtain ⟨allowed, returned⟩ := require_bind_ok ran
      cases returned
      exact .sret allowed
  | mret =>
      obtain ⟨allowed, returned⟩ := require_bind_ok ran
      cases returned
      exact .mret (of_decide_eq_true allowed)
  | wfi =>
      obtain ⟨allowed, waited⟩ := require_bind_ok ran
      cases waited
      exact retires_wfi allowed
  | sfenceVma rs1 rs2 =>
      obtain ⟨allowed, fenced⟩ := require_bind_ok ran
      cases fenced
      exact .fence allowed

theorem execute_mret {machine : Machine} (top : machine.hart.privilege = .machine)
    (raw length : Word) :
    (execute .mret raw length).outcome machine =
      (.ok (), { machine with hart := machine.hart.returnFromMachine.value }) := by
  unfold execute
  rw [Attempt.outcome_lift_bind, Effect.outcome_getHart]
  dsimp only
  rw [decide_eq_true top]
  rfl

theorem execute_sret {machine : Machine}
    (allowed : machine.hart.allowsSupervisor machine.hart.status.tsr = true) (raw length : Word) :
    (execute .sret raw length).outcome machine =
      (.ok (), { machine with hart := machine.hart.returnFromSupervisor.value }) := by
  unfold execute
  rw [Attempt.outcome_lift_bind, Effect.outcome_getHart]
  dsimp only
  rw [allowed]
  rfl

/-! ## Instructions that fail -/

/-- To locate an address fails only if its translation does, and changes nothing more. -/
theorem locate_error {address : Word} {kind : AccessKind} {machine after : Machine}
    {raised : Exception} (failed : (locate address kind).outcome machine = (.error raised, after)) :
    (translate address kind).outcome machine = (.error raised, after) := by
  unfold locate at failed
  rw [Attempt.outcome_lift_bind, Effect.outcome_getHart] at failed
  dsimp only at failed
  split at failed
  · cases failed
  · rcases Attempt.outcome_bind_eq_error.1 failed with translation | ⟨physical, middle, -, rest⟩
    · exact translation
    · rw [Attempt.outcome_lift_bind, Effect.outcome_findRegion] at rest
      dsimp only at rest
      split at rest <;> cases rest

/-- An access that cannot fail once its address is located fails before it did anything, or in the
translation of its address. -/
theorem access_error {α : Type} {refused : Prop} [Decidable refused] {refusal raised : Exception}
    {address : Word} {kind : AccessKind} {rest : Word × Option Region → Attempt α}
    {machine after : Machine}
    (total : ∀ place middle, ((rest place).outcome middle).1 ≠ .error raised)
    (failed : Attempt.outcome (do
      if refused then throw refusal
      let place ← locate address kind
      rest place) machine = (.error raised, after)) :
    after = machine ∨ (translate address kind).outcome machine = (.error raised, after) := by
  dsimp only at failed
  rw [Attempt.outcome_ite] at failed
  split at failed
  · cases failed
    exact .inl rfl
  · rcases Attempt.outcome_bind_eq_error.1 failed with translation | ⟨place, middle, -, ended⟩
    · exact .inr (locate_error translation)
    · exact absurd (congrArg Prod.fst ended) (total place middle)

theorem accessCsr_error {rd : Reg} {address : CsrAddress} {reads writes : Bool}
    {change : Word → Word} {raw length : Word} {machine after : Machine} {raised : Exception}
    (failed : (accessCsr rd address reads writes change raw length).outcome machine =
      (.error raised, after)) : after = machine := by
  unfold accessCsr at failed
  rw [Attempt.outcome_lift_bind, Effect.outcome_getHart] at failed
  split at failed
  · cases writes <;> cases failed
  · cases failed
    rfl

/-- A privileged instruction that cannot fail once it is allowed fails before it did anything. -/
theorem require_bind_error {allowed : Bool} {raw : Word} {next : Attempt Unit}
    {machine after : Machine} {raised : Exception}
    (total : (next.outcome machine).1 ≠ .error raised)
    (failed : Attempt.outcome (require allowed raw >>= fun _ => next) machine =
      (.error raised, after)) : after = machine := by
  cases allowed with
  | false =>
      cases failed
      rfl
  | true => exact absurd (congrArg Prod.fst failed) total

section AccessErrors

variable {address : Word} {machine after : Machine} {raised : Exception}

theorem load_error {width : Width}
    (failed : (load address width).outcome machine = (.error raised, after)) :
    after = machine ∨ (translate address .load).outcome machine = (.error raised, after) := by
  refine access_error (fun place middle => ?_) failed
  exact nofun

theorem store_error {value : Word} {width : Width}
    (failed : (store address value width).outcome machine = (.error raised, after)) :
    after = machine ∨ (translate address .store).outcome machine = (.error raised, after) := by
  refine access_error (fun place middle => ?_) failed
  exact nofun

theorem loadReserved_error
    (failed : (loadReserved address).outcome machine = (.error raised, after)) :
    after = machine ∨ (translate address .load).outcome machine = (.error raised, after) := by
  refine access_error (fun place middle => ?_) failed
  exact nofun

theorem atomicUpdate_error {change : Word → Word}
    (failed : (atomicUpdate address change).outcome machine = (.error raised, after)) :
    after = machine ∨ (translate address .store).outcome machine = (.error raised, after) := by
  refine access_error (fun place middle => ?_) failed
  exact nofun

/-- A conditional store gives up the reservation before anything can fail. -/
theorem storeConditional_error {value : Word}
    (failed : (storeConditional address value).outcome machine = (.error raised, after)) :
    after = machine.release ∨
      (translate address .store).outcome machine.release = (.error raised, after) := by
  unfold storeConditional at failed
  rw [Attempt.outcome_lift_bind, Attempt.outcome_lift_bind] at failed
  refine access_error (fun place middle => ?_) failed
  rw [Attempt.outcome_ite]
  split <;> exact nofun

end AccessErrors

/-- An instruction that fails has changed no more than a failed translation does, and a conditional
store has given up the reservation besides. -/
theorem execute_error {instruction : Instruction} {raw length : Word} {machine after : Machine}
    {raised : Exception}
    (failed : (execute instruction raw length).outcome machine = (.error raised, after)) :
    ∃ start : Machine,
      (start = machine ∨
        (∃ rd rs1 rs2, instruction = .storeConditional rd rs1 rs2) ∧ start = machine.release) ∧
      (after = start ∨
        ∃ address kind, (translate address kind).outcome start = (.error raised, after)) := by
  unfold execute at failed
  rw [Attempt.outcome_lift_bind, Effect.outcome_getHart] at failed
  cases instruction with
  | opImm op rd rs1 imm => cases failed
  | shiftImm op rd rs1 shamt => cases failed
  | auipc rd imm => cases failed
  | lui rd imm => cases failed
  | opReg op rd rs1 rs2 => cases failed
  | jal rd offset => cases failed
  | jalr rd rs1 offset => cases failed
  | branch condition rs1 rs2 offset => cases failed
  | load op rd rs1 offset =>
      rcases Attempt.outcome_bind_eq_error.1 failed with accessed | ⟨_, _, -, finished⟩
      · exact ⟨machine, .inl rfl, (load_error accessed).imp_right fun fault => ⟨_, _, fault⟩⟩
      · cases finished
  | store width rs2 rs1 offset =>
      rcases Attempt.outcome_bind_eq_error.1 failed with accessed | ⟨_, _, -, finished⟩
      · exact ⟨machine, .inl rfl, (store_error accessed).imp_right fun fault => ⟨_, _, fault⟩⟩
      · cases finished
  | fence predecessor successor => cases failed
  | fenceI => cases failed
  | csr op rd number rs1 => exact ⟨machine, .inl rfl, .inl (accessCsr_error failed)⟩
  | csrImm op rd number imm => exact ⟨machine, .inl rfl, .inl (accessCsr_error failed)⟩
  | loadReserved rd rs1 =>
      rcases Attempt.outcome_bind_eq_error.1 failed with accessed | ⟨_, _, -, finished⟩
      · exact ⟨machine, .inl rfl,
          (loadReserved_error accessed).imp_right fun fault => ⟨_, _, fault⟩⟩
      · cases finished
  | storeConditional rd rs1 rs2 =>
      rcases Attempt.outcome_bind_eq_error.1 failed with accessed | ⟨_, _, -, finished⟩
      · exact ⟨machine.release, .inr ⟨⟨rd, rs1, rs2, rfl⟩, rfl⟩,
          (storeConditional_error accessed).imp_right fun fault => ⟨_, _, fault⟩⟩
      · cases finished
  | amo op rd rs1 rs2 =>
      rcases Attempt.outcome_bind_eq_error.1 failed with accessed | ⟨_, _, -, finished⟩
      · exact ⟨machine, .inl rfl,
          (atomicUpdate_error accessed).imp_right fun fault => ⟨_, _, fault⟩⟩
      · cases finished
  | ecall =>
      cases failed
      exact ⟨machine, .inl rfl, .inl rfl⟩
  | ebreak =>
      cases failed
      exact ⟨machine, .inl rfl, .inl rfl⟩
  | sret =>
      refine ⟨machine, .inl rfl, .inl (require_bind_error ?_ failed)⟩
      exact nofun
  | mret =>
      refine ⟨machine, .inl rfl, .inl (require_bind_error ?_ failed)⟩
      exact nofun
  | wfi =>
      refine ⟨machine, .inl rfl, .inl (require_bind_error ?_ failed)⟩
      exact nofun
  | sfenceVma rs1 rs2 =>
      refine ⟨machine, .inl rfl, .inl (require_bind_error ?_ failed)⟩
      exact nofun

/-- The hart that is left is the one from before, possibly without its reservation. -/
theorem execute_error_hart {instruction : Instruction} {raw length : Word}
    {machine after : Machine} {raised : Exception}
    (failed : (execute instruction raw length).outcome machine = (.error raised, after)) :
    after.hart = machine.hart ∨
      (∃ rd rs1 rs2, instruction = .storeConditional rd rs1 rs2) ∧
        after.hart = machine.release.hart := by
  obtain ⟨start, released, ended⟩ := execute_error failed
  have startKept : after.hart = start.hart := by
    rcases ended with rfl | ⟨address, kind, faulted⟩
    · rfl
    · have translated := translate_hartKept address kind start
      rw [faulted] at translated
      exact translated
  rw [startKept]
  rcases released with rfl | ⟨conditional, rfl⟩
  · exact .inl rfl
  · exact .inr ⟨conditional, rfl⟩

/-! ## The next instruction -/

theorem executeNext_outcome (machine : Machine) :
    executeNext.outcome machine =
      match fetch.outcome machine with
      | (.error raised, fetched) => (.error raised, fetched)
      | (.ok raw, fetched) =>
        match decodeFetched raw with
        | .ok (instruction, length) => (execute instruction raw length).outcome fetched
        | .error _ => (.error (.illegalInstruction raw), fetched) := by
  unfold executeNext
  rw [Attempt.outcome_bind]
  rcases fetch.outcome machine with ⟨raised | raw, fetched⟩
  · rfl
  · dsimp only
    unfold executeFetched
    rcases decodeFetched raw with refused | ⟨instruction, length⟩
    · rfl
    · rfl

/-- The next instruction completes: it was fetched, decoded and executed. -/
theorem executeNext_ok {machine after : Machine}
    (ran : executeNext.outcome machine = (.ok (), after)) :
    ∃ raw instruction length fetched,
      fetch.outcome machine = (.ok raw, fetched) ∧
      decodeFetched raw = .ok (instruction, length) ∧
      (execute instruction raw length).outcome fetched = (.ok (), after) := by
  obtain ⟨raw, fetched, wasFetched, ran⟩ := Attempt.outcome_bind_eq_ok.1 ran
  unfold executeFetched at ran
  rcases decoded : decodeFetched raw with failure | ⟨instruction, length⟩
  · rw [decoded] at ran
    cases ran
  · rw [decoded] at ran
    exact ⟨raw, instruction, length, fetched, wasFetched, decoded, ran⟩

/-- The next instruction fails: it cannot be fetched, or not be decoded, or its execution fails. -/
theorem executeNext_error {machine after : Machine} {raised : Exception}
    (failed : executeNext.outcome machine = (.error raised, after)) :
    fetch.outcome machine = (.error raised, after) ∨
      (∃ raw, fetch.outcome machine = (.ok raw, after)) ∨
      ∃ raw instruction length fetched,
        fetch.outcome machine = (.ok raw, fetched) ∧
        decodeFetched raw = .ok (instruction, length) ∧
        (execute instruction raw length).outcome fetched = (.error raised, after) := by
  rcases Attempt.outcome_bind_eq_error.1 failed with fetchFailed | ⟨raw, fetched, wasFetched, ran⟩
  · exact .inl fetchFailed
  · refine .inr ?_
    unfold executeFetched at ran
    rcases decoded : decodeFetched raw with failure | ⟨instruction, length⟩
    · rw [decoded] at ran
      cases ran
      exact .inl ⟨raw, wasFetched⟩
    · rw [decoded] at ran
      exact .inr ⟨raw, instruction, length, fetched, wasFetched, decoded, ran⟩

theorem nextInstruction_eq_some {machine fetched : Machine} {raw length : Word}
    {instruction : Instruction} (wasFetched : fetch.outcome machine = (.ok raw, fetched))
    (decoded : decodeFetched raw = .ok (instruction, length)) :
    machine.nextInstruction = some instruction := by
  unfold nextInstruction
  rw [wasFetched]
  dsimp only
  rw [decoded]
  rfl

theorem nextInstruction_fetched {machine : Machine} {instruction : Instruction}
    (isNext : machine.nextInstruction = some instruction) :
    ∃ raw length fetched, fetch.outcome machine = (.ok raw, fetched) ∧
      decodeFetched raw = .ok (instruction, length) := by
  unfold nextInstruction at isNext
  rcases wasFetched : fetch.outcome machine with ⟨raised | raw, fetched⟩
  · rw [wasFetched] at isNext
    cases isNext
  · rw [wasFetched] at isNext
    dsimp only at isNext
    rcases decoded : decodeFetched raw with failure | ⟨decodedInstruction, length⟩
    · rw [decoded] at isNext
      cases isNext
    · rw [decoded] at isNext
      cases isNext
      exact ⟨raw, length, fetched, rfl, decoded⟩

/-- An instruction that was fetched and decoded is executed. -/
theorem executeNext_of_fetched {machine fetched : Machine} {raw length : Word}
    {instruction : Instruction} (wasFetched : fetch.outcome machine = (.ok raw, fetched))
    (decoded : decodeFetched raw = .ok (instruction, length)) :
    executeNext.outcome machine = (execute instruction raw length).outcome fetched := by
  unfold executeNext
  rw [Attempt.outcome_bind_ok wasFetched]
  unfold executeFetched
  rw [decoded]

/-- The next instruction retires in a hart that has lost or gained cached translations at most. -/
theorem executeNext_retires {machine after : Machine}
    (ran : executeNext.outcome machine = (.ok (), after)) :
    ∃ instruction fetched, machine.nextInstruction = some instruction ∧
      machine.hart.EqModTlb fetched ∧ fetched.Retires instruction after.hart := by
  obtain ⟨raw, instruction, length, fetched, wasFetched, decoded, ran⟩ := executeNext_ok ran
  have kept := fetch_hartCached machine
  rw [wasFetched] at kept
  exact ⟨instruction, fetched.hart, nextInstruction_eq_some wasFetched decoded, kept,
    execute_ok ran⟩

/-- When the next instruction fails, the hart has kept everything but its caches, and the
reservation if that instruction was a conditional store. -/
theorem executeNext_error_hart {machine after : Machine} {raised : Exception}
    (failed : executeNext.outcome machine = (.error raised, after)) :
    machine.hart.EqModAccess after.hart ∧
      (after.hart.reservation = machine.hart.reservation ∨
        after.hart.reservation = none ∧
          ∃ rd rs1 rs2, machine.nextInstruction = some (.storeConditional rd rs1 rs2)) := by
  have kept := fetch_hartCached machine
  rcases executeNext_error failed with fetchFailed | ⟨raw, wasFetched⟩ |
    ⟨raw, instruction, length, fetched, wasFetched, decoded, ran⟩
  · rw [fetchFailed] at kept
    exact ⟨kept.access, .inl (kept.apply fun _ _ => rfl)⟩
  · rw [wasFetched] at kept
    exact ⟨kept.access, .inl (kept.apply fun _ _ => rfl)⟩
  · rw [wasFetched] at kept
    rcases execute_error_hart ran with same | ⟨⟨rd, rs1, rs2, rfl⟩, same⟩
    · rw [same]
      exact ⟨kept.access, .inl (kept.apply fun _ _ => rfl)⟩
    · have isNext := nextInstruction_eq_some wasFetched decoded
      rw [same]
      exact ⟨kept.access.trans ⟨_, none, rfl⟩, .inr ⟨rfl, rd, rs1, rs2, isNext⟩⟩

/-! ## One turn -/

/-- Execute an instruction, in a way that is given, and enter a trap if that fails. -/
def tickBy (next : Attempt Unit) : Effect Cost := do
  modifyHart fun hart => { hart with mcycle := hart.mcycle + 1 }
  match ← next.run with
  | .ok () => pure .one
  | .error raised =>
    updateHart fun hart => hart.enterTrap (.exception raised)
    pure .two

/-- One turn of a machine that executes instructions in a way that is given. -/
def cycleBy (next : Attempt Unit) : Effect Cost := do
  match (← getHart).nextInterrupt with
  | some interrupt =>
    updateHart fun hart => hart.enterTrap (.interrupt interrupt)
    pure .one
  | none => tickBy next

theorem cycleBy_executeNext : cycleBy executeNext = cycle := rfl

theorem tickBy_outcome (next : Attempt Unit) (machine : Machine) :
    (tickBy next).outcome machine =
      match next.outcome machine.counted with
      | (.ok (), after) => (.one, after)
      | (.error raised, after) => (.two, after.trapped (.exception raised)) := by
  have ticked : (tickBy next).outcome machine =
      Effect.outcome
        (match (next.outcome machine.counted).1 with
        | .ok () => pure .one
        | .error raised => do
          updateHart fun hart => hart.enterTrap (.exception raised)
          pure .two)
        (next.outcome machine.counted).2 := rfl
  rw [ticked]
  rcases next.outcome machine.counted with ⟨raised | done, after⟩ <;> rfl

theorem cycleBy_outcome (next : Attempt Unit) (machine : Machine) :
    (cycleBy next).outcome machine =
      match machine.hart.nextInterrupt with
      | some interrupt => (.one, machine.trapped (.interrupt interrupt))
      | none =>
        match next.outcome machine.counted with
        | (.ok (), after) => (.one, after)
        | (.error raised, after) => (.two, after.trapped (.exception raised)) := by
  have opened : (cycleBy next).outcome machine =
      Effect.outcome
        (match machine.hart.nextInterrupt with
        | some interrupt => do
          updateHart fun hart => hart.enterTrap (.interrupt interrupt)
          pure .one
        | none => tickBy next)
        machine := rfl
  rw [opened]
  cases machine.hart.nextInterrupt with
  | some interrupt => rfl
  | none => exact tickBy_outcome next machine

/-- What a turn of a machine can be. -/
inductive Turns (machine : Machine) : Cost → Machine → Prop
  | interrupted {interrupt : Interrupt} (pending : machine.hart.nextInterrupt = some interrupt) :
      machine.Turns .one (machine.trapped (.interrupt interrupt))
  | completed {after : Machine} (none : machine.hart.nextInterrupt = none)
      (ran : executeNext.outcome machine.counted = (.ok (), after)) : machine.Turns .one after
  | failed {after : Machine} {raised : Exception} (none : machine.hart.nextInterrupt = none)
      (ran : executeNext.outcome machine.counted = (.error raised, after)) :
      machine.Turns .two (after.trapped (.exception raised))

theorem cycle_turns (machine : Machine) :
    machine.Turns (cycle.outcome machine).1 (cycle.outcome machine).2 := by
  rw [← cycleBy_executeNext, cycleBy_outcome]
  rcases pending : machine.hart.nextInterrupt with _ | interrupt
  · dsimp only
    rcases ran : executeNext.outcome machine.counted with ⟨raised | done, after⟩
    · exact .failed pending ran
    · exact .completed pending ran
  · exact .interrupted pending

/-- A turn does on the bus what the instruction does that is executed. -/
theorem bus_cycle {machine : Machine} (uninterrupted : machine.hart.nextInterrupt = none) :
    (cycle.outcome machine).2.bus = (executeNext.outcome machine.counted).2.bus := by
  rw [← cycleBy_executeNext, cycleBy_outcome, uninterrupted]
  dsimp only
  rcases executeNext.outcome machine.counted with ⟨raised | done, after⟩
  · rfl
  · rfl

/-- An interrupt does nothing on the bus. -/
theorem bus_cycle_of_interrupt {machine : Machine} {interrupt : Interrupt}
    (pending : machine.hart.nextInterrupt = some interrupt) :
    (cycle.outcome machine).2.bus = machine.bus := by
  rw [← cycleBy_executeNext, cycleBy_outcome, pending]
  rfl

end Machine

end Rv32
