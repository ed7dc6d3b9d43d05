import Rv32.Proofs.CacheBlind

/-!
# The access that an instruction makes

An instruction accesses data in at most one place (`Instruction.access`). One that does, locates
its address first and cannot fail after that (`Machine.execute_of_access`); `Machine.complete` is
what is left to do then. One that does not, leaves the bus alone and takes no notice of what is
cached (`Machine.execute_local`).
-/

namespace Rv32

namespace Instruction

/-- An access of some width, which is made at aligned addresses only. -/
def accessAt (width : Width) (address : Word) (kind : AccessKind) : Option (Word × AccessKind) :=
  if width.Aligned address then some (address, kind) else none

/-- Where an instruction accesses data, and how. -/
def access (instruction : Instruction) (hart : Hart) : Option (Word × AccessKind) :=
  match instruction with
  | .load op _ rs1 offset => accessAt op.width (hart.x rs1 + offset.signExtend 32) .load
  | .store width _ rs1 offset => accessAt width (hart.x rs1 + offset.signExtend 32) .store
  | .loadReserved _ rs1 => accessAt .word (hart.x rs1) .load
  | .storeConditional _ rs1 _ => accessAt .word (hart.x rs1) .store
  | .amo _ _ rs1 _ => accessAt .word (hart.x rs1) .store
  | _ => none

variable {width : Width} {address place : Word} {kind how : AccessKind}

theorem accessAt_eq_some (access : accessAt width place how = some (address, kind)) :
    width.Aligned place ∧ place = address ∧ how = kind := by
  unfold accessAt at access
  split at access
  · rename_i aligned
    cases access
    exact ⟨aligned, rfl, rfl⟩
  · cases access

theorem accessAt_eq_none (access : accessAt width place how = none) : ¬ width.Aligned place := by
  unfold accessAt at access
  split at access
  · cases access
  · assumption

end Instruction

/-! ## Effects that take no notice of the caches -/

/-- The effect keeps the caches and the context of accesses, and does the same whatever is cached.
-/
structure Effect.Blind {α : Type} (effect : Effect α) : Prop where
  refreshed : ∀ machine : Machine, machine.hart.Refreshed (effect.outcome machine).2.hart
  same : ∀ (machine : Machine) tlb, effect.outcome (machine.withTlb tlb) =
    ((effect.outcome machine).1, (effect.outcome machine).2.withTlb tlb)

namespace Effect.Blind

variable {α β : Type}

theorem pure (value : α) : Effect.Blind (Pure.pure value) :=
  ⟨fun _ => .refl _, fun _ _ => rfl⟩

theorem bind {effect : Effect α} {next : α → Effect β} (first : effect.Blind)
    (rest : ∀ value, (next value).Blind) : Effect.Blind (effect >>= next) := by
  refine ⟨fun machine => ?_, fun machine tlb => ?_⟩
  · rw [Effect.outcome_bind]
    exact (first.refreshed machine).trans ((rest _).refreshed _)
  · rw [Effect.outcome_bind, Effect.outcome_bind, first.same]
    exact (rest _).same _ _

theorem ite {condition : Prop} [Decidable condition] {yes no : Effect α} (first : yes.Blind)
    (second : no.Blind) : Effect.Blind (if condition then yes else no) := by
  split
  · exact first
  · exact second

theorem modifyHart {change : Hart → Hart}
    (same : ∀ (hart : Hart) tlb, change { hart with tlb := tlb } = { change hart with tlb := tlb })
    (context : ∀ (hart : Hart) kind,
      (change hart).translationContext kind = hart.translationContext kind) :
    (Machine.modifyHart change).Blind := by
  refine ⟨fun machine => ?_, fun machine tlb => ?_⟩
  · have kept := congrArg Hart.tlb (same machine.hart machine.hart.tlb)
    exact .inr ⟨kept, context machine.hart⟩
  · unfold Machine.withTlb
    rw [Effect.outcome_modifyHart, Effect.outcome_modifyHart, same]

theorem getHart {next : Hart → Effect α}
    (same : ∀ (hart : Hart) tlb, next { hart with tlb := tlb } = next hart)
    (rest : ∀ hart, (next hart).Blind) : Effect.Blind (Machine.getHart >>= next) := by
  refine ⟨fun machine => (rest machine.hart).refreshed machine, fun machine tlb => ?_⟩
  have opened : Effect.outcome (Machine.getHart >>= next) (machine.withTlb tlb) =
      (next { machine.hart with tlb := tlb }).outcome (machine.withTlb tlb) := rfl
  rw [opened, same]
  exact (rest machine.hart).same machine tlb

end Effect.Blind

namespace Machine

theorem readLocated_blind (physical : Word) (region? : Option Region) (width : Width) :
    (readLocated physical region? width).Blind := by
  cases region? with
  | none => exact ⟨fun _ => .refl _, fun _ _ => rfl⟩
  | some region => exact ⟨fun _ => .refl _, fun _ _ => rfl⟩

theorem writeLocated_blind (physical : Word) (region? : Option Region) (value : Word)
    (width : Width) : (writeLocated physical region? value width).Blind := by
  cases region? with
  | none => exact ⟨fun _ => .refl _, fun _ _ => rfl⟩
  | some region => exact ⟨fun _ => .refl _, fun _ _ => rfl⟩

theorem finish_blind (rd : Reg) (value length : Word) : (finish rd value length).Blind :=
  .modifyHart (fun _ _ => rfl) fun _ _ => rfl

/-! ## Instructions that access data -/

/-- What an instruction does before it locates its address: a conditional store gives up the
reservation. -/
def prepare (instruction : Instruction) (machine : Machine) : Machine :=
  match instruction with
  | .storeConditional .. => machine.release
  | _ => machine

/-- What is left of an instruction when its address has been located, if it started in `start`. -/
def complete (instruction : Instruction) (start : Hart) (length physical : Word)
    (region? : Option Region) : Effect Unit :=
  match instruction with
  | .load op rd _ _ => do
    let value ← readLocated physical region? op.width
    finish rd (op.extend value) length
  | .store width rs2 _ _ => do
    writeLocated physical region? (start.x rs2) width
    modifyHart fun hart => hart.advance length
  | .loadReserved rd _ => do
    modifyHart fun hart => { hart with reservation := some physical }
    let value ← readLocated physical region? .word
    finish rd value length
  | .storeConditional rd _ rs2 => do
    if start.reservation = some physical then
      writeLocated physical region? (start.x rs2) .word
      finish rd (boolWord false) length
    else finish rd (boolWord true) length
  | .amo op rd _ rs2 => do
    let old ← readLocated physical region? .word
    writeLocated physical region? (op.eval old (start.x rs2)) .word
    finish rd old length
  | _ => pure ()

theorem execute_of_access {instruction : Instruction} {raw length address : Word}
    {kind : AccessKind} {machine : Machine}
    (access : instruction.access machine.hart = some (address, kind)) :
    (execute instruction raw length).outcome machine =
      match (locate address kind).outcome (prepare instruction machine) with
      | (.ok (physical, region?), after) =>
        (.ok (), ((complete instruction machine.hart length physical region?).outcome after).2)
      | (.error raised, after) => (.error raised, after) := by
  unfold execute
  rw [Attempt.outcome_lift_bind, Effect.outcome_getHart]
  cases instruction with
  | load op rd rs1 offset =>
      obtain ⟨aligned, rfl, rfl⟩ := Instruction.accessAt_eq_some access
      dsimp only
      unfold load prepare complete
      rw [Attempt.outcome_bind, Attempt.outcome_ite, if_neg (not_not_intro aligned),
        Attempt.outcome_bind]
      rcases (locate (machine.hart.x rs1 + offset.signExtend 32) .load).outcome machine with
        ⟨raised | ⟨physical, region?⟩, after⟩
      · rfl
      · rfl
  | store width rs2 rs1 offset =>
      obtain ⟨aligned, rfl, rfl⟩ := Instruction.accessAt_eq_some access
      dsimp only
      unfold store prepare complete
      rw [Attempt.outcome_bind, Attempt.outcome_ite, if_neg (not_not_intro aligned),
        Attempt.outcome_bind]
      rcases (locate (machine.hart.x rs1 + offset.signExtend 32) .store).outcome machine with
        ⟨raised | ⟨physical, region?⟩, after⟩
      · rfl
      · rfl
  | loadReserved rd rs1 =>
      obtain ⟨aligned, rfl, rfl⟩ := Instruction.accessAt_eq_some access
      dsimp only
      unfold loadReserved prepare complete
      rw [Attempt.outcome_bind, Attempt.outcome_ite, if_neg (not_not_intro aligned),
        Attempt.outcome_bind]
      rcases (locate (machine.hart.x rs1) .load).outcome machine with
        ⟨raised | ⟨physical, region?⟩, after⟩
      · rfl
      · rfl
  | storeConditional rd rs1 rs2 =>
      obtain ⟨aligned, rfl, rfl⟩ := Instruction.accessAt_eq_some access
      dsimp only
      unfold storeConditional prepare complete release
      rw [Attempt.outcome_bind, Attempt.outcome_lift_bind, Effect.outcome_getHart,
        Attempt.outcome_lift_bind, Effect.outcome_modifyHart, Attempt.outcome_ite,
        if_neg (not_not_intro aligned), Attempt.outcome_bind]
      dsimp only
      rcases (locate (machine.hart.x rs1) .store).outcome
          { machine with hart := { machine.hart with reservation := none } } with
        ⟨raised | ⟨physical, region?⟩, after⟩
      · rfl
      · dsimp only
        rw [Attempt.outcome_ite, Effect.outcome_ite]
        by_cases reserved : machine.hart.reservation = some physical
        · rw [if_pos reserved, if_pos reserved]
          rfl
        · rw [if_neg reserved, if_neg reserved]
          rfl
  | amo op rd rs1 rs2 =>
      obtain ⟨aligned, rfl, rfl⟩ := Instruction.accessAt_eq_some access
      dsimp only
      unfold atomicUpdate prepare complete
      rw [Attempt.outcome_bind, Attempt.outcome_ite, if_neg (not_not_intro aligned),
        Attempt.outcome_bind]
      rcases (locate (machine.hart.x rs1) .store).outcome machine with
        ⟨raised | ⟨physical, region?⟩, after⟩
      · rfl
      · rfl
  | _ => cases access

/-- What is left of an instruction takes no notice of what is cached. -/
theorem complete_blind (instruction : Instruction) (start : Hart) (length physical : Word)
    (region? : Option Region) : (complete instruction start length physical region?).Blind := by
  have reads := readLocated_blind physical region?
  have writes := writeLocated_blind physical region?
  have finishes : ∀ rd value, (finish rd value length).Blind := fun _ _ => finish_blind ..
  cases instruction with
  | load op rd rs1 offset => exact .bind (reads _) fun _ => finishes _ _
  | store width rs2 rs1 offset =>
      exact .bind (writes _ _) fun _ => .modifyHart (fun _ _ => rfl) fun _ _ => rfl
  | loadReserved rd rs1 =>
      refine .bind (.modifyHart (fun _ _ => rfl) fun _ _ => rfl) fun _ => ?_
      exact .bind (reads _) fun _ => finishes _ _
  | storeConditional rd rs1 rs2 =>
      exact .ite (.bind (writes _ _) fun _ => finishes _ _) (finishes _ _)
  | amo op rd rs1 rs2 =>
      exact .bind (reads _) fun _ => .bind (writes _ _) fun _ => finishes _ _
  | _ => exact .pure ()

/-- What is left of an instruction attaches and removes no device. -/
theorem complete_mapKept (instruction : Instruction) (start : Hart) (length physical : Word)
    (region? : Option Region) :
    (complete instruction start length physical region?).Within MapKept := by
  have reads := readLocated_mapKept physical region?
  have writes := writeLocated_mapKept physical region?
  have modifies : ∀ change, (modifyHart change).Within MapKept := fun _ machine => .refl machine
  cases instruction with
  | load op rd rs1 offset => exact .bind .trans (reads _) fun _ => modifies _
  | store width rs2 rs1 offset => exact .bind .trans (writes _ _) fun _ => modifies _
  | loadReserved rd rs1 =>
      exact .bind .trans (modifies _) fun _ => .bind .trans (reads _) fun _ => modifies _
  | storeConditional rd rs1 rs2 =>
      intro machine
      unfold complete
      rw [Effect.outcome_ite]
      split
      · exact Effect.Within.bind .trans (writes _ _) (fun _ => modifies _) machine
      · exact modifies _ machine
  | amo op rd rs1 rs2 =>
      exact .bind .trans (reads _) fun _ => .bind .trans (writes _ _) fun _ => modifies _
  | _ => exact .pure .refl ()

end Machine

/-! ## Instructions that do not access data -/

/-- From this machine on, the attempt leaves the bus alone, empties the caches if it changes the
context of accesses, and does the same whatever is cached. -/
structure Attempt.Local {α : Type} (attempt : Attempt α) (machine : Machine) : Prop where
  bus : (attempt.outcome machine).2.bus = machine.bus
  refreshed : machine.hart.Refreshed (attempt.outcome machine).2.hart
  same : ∀ tlb, ∃ other, attempt.outcome (machine.withTlb tlb) =
    ((attempt.outcome machine).1, (attempt.outcome machine).2.withTlb other)

namespace Attempt.Local

variable {α β : Type} {machine : Machine}

theorem throw (raised : Exception) : (MonadExcept.throw raised : Attempt α).Local machine :=
  ⟨rfl, .refl _, fun tlb => ⟨tlb, rfl⟩⟩

theorem bind {attempt : Attempt α} {next : α → Attempt β} (first : attempt.Local machine)
    (rest : ∀ value after, attempt.outcome machine = (.ok value, after) →
      (next value).Local after) :
    Attempt.Local (attempt >>= next) machine := by
  obtain ⟨bus, refreshed, same⟩ := first
  rcases ran : attempt.outcome machine with ⟨raised | value, after⟩
  · rw [ran] at bus refreshed same
    have failed : Attempt.outcome (attempt >>= next) machine = (.error raised, after) :=
      Attempt.outcome_bind_error ran
    refine ⟨?_, ?_, fun tlb => ?_⟩
    · rw [failed]
      exact bus
    · rw [failed]
      exact refreshed
    · obtain ⟨other, ranToo⟩ := same tlb
      rw [failed, Attempt.outcome_bind_error ranToo]
      exact ⟨other, rfl⟩
  · rw [ran] at bus refreshed same
    have reached : Attempt.outcome (attempt >>= next) machine = (next value).outcome after :=
      Attempt.outcome_bind_ok ran
    have following := rest value after ran
    refine ⟨?_, ?_, fun tlb => ?_⟩
    · rw [reached]
      exact following.bus.trans bus
    · rw [reached]
      exact refreshed.trans following.refreshed
    · obtain ⟨other, ranToo⟩ := same tlb
      rw [reached, Attempt.outcome_bind_ok ranToo]
      exact following.same other

theorem getHart {next : Hart → Attempt α}
    (same : ∀ tlb, next { machine.hart with tlb := tlb } = next machine.hart)
    (rest : (next machine.hart).Local machine) :
    Attempt.Local (liftM Machine.getHart >>= next) machine := by
  refine ⟨rest.bus, rest.refreshed, fun tlb => ?_⟩
  have opened : Attempt.outcome (liftM Machine.getHart >>= next) (machine.withTlb tlb) =
      (next { machine.hart with tlb := tlb }).outcome (machine.withTlb tlb) := rfl
  rw [opened, same]
  exact rest.same tlb

theorem updateHart {change : Hart → Logged Hart}
    (refreshed : machine.hart.Refreshed (change machine.hart).value)
    (same : ∀ {first second : Hart}, first.EqModTlb second →
      (change first).value.EqModTlb (change second).value) :
    Attempt.Local (liftM (Machine.updateHart change)) machine := by
  refine ⟨rfl, refreshed, fun tlb => ?_⟩
  obtain ⟨other, alike⟩ := same (⟨tlb, rfl⟩ : machine.hart.EqModTlb _)
  exact ⟨other, congrArg (fun hart => (Except.ok (), Machine.mk hart machine.bus)) alike⟩

/-- An effect on the hart alone that takes no notice of the caches. -/
theorem blind {effect : Effect α} (blind : effect.Blind)
    (bus : (effect.outcome machine).2.bus = machine.bus) :
    Attempt.Local (liftM effect) machine := by
  refine ⟨bus, blind.refreshed machine, fun tlb => ⟨tlb, ?_⟩⟩
  rw [Attempt.outcome_lift, Attempt.outcome_lift, blind.same]

theorem require {allowed : Bool} {raw : Word} {next : Attempt Unit}
    (rest : allowed = true → next.Local machine) :
    Attempt.Local (Machine.require allowed raw >>= fun _ => next) machine := by
  cases allowed with
  | false => exact .throw _
  | true => exact ⟨(rest rfl).bus, (rest rfl).refreshed, (rest rfl).same⟩

/-- An attempt that is refused right away. -/
theorem refused {condition : Prop} [Decidable condition] (holds : condition) {raised : Exception}
    {rest : Attempt α} :
    Attempt.Local (do
      if condition then MonadExcept.throw raised
      rest) machine := by
  rw [if_pos holds]
  exact .throw raised

end Attempt.Local

namespace Machine

theorem accessCsr_local (rd : Reg) (address : CsrAddress) (reads writes : Bool)
    (change : Word → Word) (raw length : Word) (machine : Machine) :
    (accessCsr rd address reads writes change raw length).Local machine := by
  unfold accessCsr
  refine .getHart (fun _ => rfl) ?_
  have finishes : ∀ value (after : Machine),
      Attempt.Local (liftM (finish rd value length)) after :=
    fun _ _ => .blind (finish_blind rd _ length) rfl
  dsimp only
  split
  · rename_i register allowed found
    cases writes with
    | false => exact finishes _ _
    | true =>
        refine .bind (.updateHart ?_ ?_) fun _ _ _ => finishes _ _
        · exact Hart.refreshed_writeCsr ..
        · exact fun same => same.writeCsr ..
  · exact .throw _

theorem waitForInterrupt_blind (length : Word) : (waitForInterrupt length).Blind := by
  unfold waitForInterrupt
  have halts : (modifyHart fun hart => { hart with halted := true }).Blind :=
    .modifyHart (fun _ _ => rfl) fun _ _ => rfl
  have advances : (modifyHart fun hart => hart.advance length).Blind :=
    .modifyHart (fun _ _ => rfl) fun _ _ => rfl
  have reports : ∀ diagnostic, (report diagnostic).Blind :=
    fun _ => ⟨fun _ => .refl _, fun _ _ => rfl⟩
  refine .getHart (fun _ _ => rfl) fun hart => .ite (.ite ?_ ?_) advances
  · exact .bind (reports _) fun _ => .bind halts fun _ => advances
  · exact .bind halts fun _ => advances

theorem bus_waitForInterrupt (length : Word) (machine : Machine) :
    ((waitForInterrupt length).outcome machine).2.bus = machine.bus := by
  unfold waitForInterrupt
  rw [Effect.outcome_bind, Effect.outcome_getHart]
  dsimp only
  rw [Effect.outcome_ite, Effect.outcome_ite]
  split
  · split <;> rfl
  · rfl

/-- An instruction that does not access data takes no notice of what is cached. A return from M-mode
does so only if no level is lent, because it may leave stale translations of that level. -/
theorem execute_local {instruction : Instruction} {raw length : Word} {machine : Machine}
    (noAccess : instruction.access machine.hart = none)
    (own : instruction = .mret → machine.hart.status.mprv = false) :
    (execute instruction raw length).Local machine := by
  have advances : ∀ distance (after : Machine),
      Attempt.Local (liftM (modifyHart fun hart => hart.advance distance)) after :=
    fun _ _ => .blind (.modifyHart (fun _ _ => rfl) fun _ _ => rfl) rfl
  have finishes : ∀ rd value, Attempt.Local (liftM (finish rd value length)) machine :=
    fun _ _ => .blind (finish_blind ..) rfl
  unfold execute
  refine .getHart (fun _ => ?_) ?_
  · cases instruction <;> rfl
  · cases instruction with
    | opImm op rd rs1 imm => exact finishes _ _
    | shiftImm op rd rs1 shamt => exact finishes _ _
    | auipc rd imm => exact finishes _ _
    | lui rd imm => exact finishes _ _
    | opReg op rd rs1 rs2 => exact finishes _ _
    | jal rd offset => exact .blind (.modifyHart (fun _ _ => rfl) fun _ _ => rfl) rfl
    | jalr rd rs1 offset => exact .blind (.modifyHart (fun _ _ => rfl) fun _ _ => rfl) rfl
    | branch condition rs1 rs2 offset => exact advances _ _
    | load op rd rs1 offset =>
        have misaligned := Instruction.accessAt_eq_none noAccess
        refine .bind (.refused misaligned) fun _ _ _ => ?_
        exact .blind (finish_blind ..) rfl
    | store width rs2 rs1 offset =>
        have misaligned := Instruction.accessAt_eq_none noAccess
        exact .bind (.refused misaligned) fun _ _ _ => advances _ _
    | fence predecessor successor => exact advances _ _
    | fenceI => exact advances _ _
    | csr op rd number rs1 => exact accessCsr_local ..
    | csrImm op rd number imm => exact accessCsr_local ..
    | loadReserved rd rs1 =>
        have misaligned := Instruction.accessAt_eq_none noAccess
        refine .bind (.refused misaligned) fun _ _ _ => ?_
        exact .blind (finish_blind ..) rfl
    | storeConditional rd rs1 rs2 =>
        have misaligned := Instruction.accessAt_eq_none noAccess
        refine .bind (.getHart (fun _ => rfl) (.bind ?_ fun _ _ _ => .refused misaligned))
          fun _ _ _ => ?_
        · exact .blind (.modifyHart (fun _ _ => rfl) fun _ _ => rfl) rfl
        · exact .blind (finish_blind ..) rfl
    | amo op rd rs1 rs2 =>
        have misaligned := Instruction.accessAt_eq_none noAccess
        refine .bind (.refused misaligned) fun _ _ _ => ?_
        exact .blind (finish_blind ..) rfl
    | ecall => exact .throw _
    | ebreak => exact .throw _
    | sret =>
        refine .require fun _ => .updateHart ?_ ?_
        · exact Hart.refreshed_returnFromSupervisor _
        · exact Hart.EqModTlb.returnFromSupervisor
    | mret =>
        refine .require fun allowed => .updateHart ?_ ?_
        · refine Hart.refreshed_returnFromMachine (of_decide_eq_true allowed) fun lends => ?_
          exact Bool.noConfusion ((own rfl).symm.trans lends.1)
        · exact Hart.EqModTlb.returnFromMachine
    | wfi =>
        exact .require fun _ => .blind (waitForInterrupt_blind length) (bus_waitForInterrupt ..)
    | sfenceVma rs1 rs2 =>
        refine .require fun _ => .bind (.updateHart (.inl rfl) ?_) fun _ _ _ => advances _ _
        rintro _ _ ⟨tlb, rfl⟩
        exact ⟨_, rfl⟩

end Machine

end Rv32
