import Rv32.Proofs.AlignedControlFlow
import Rv32.Proofs.CompressedForms

/-!
# Reserved encodings of compressed instructions

`Instruction.Reserved` lists the reserved parcels by their bit fields. They are exactly those that
cannot be expanded (`Instruction.expand_refuses_iff`). What the other parcels stand for is never
refused when it is executed, so the reserved ones are also the only ones for which a machine raises
an illegal instruction (`Machine.reserved_parcels_trap`).
-/

namespace Rv32

/-! ## Fields that are zero -/

theorem append_eq_zero_iff {high low : Nat} {first : BitVec high} {second : BitVec low} :
    first ++ second = 0 ↔ first = 0 ∧ second = 0 := by
  simp only [← BitVec.toNat_inj, BitVec.toNat_append, BitVec.ofNat_eq_ofNat, BitVec.toNat_ofNat,
    Nat.zero_mod, Nat.or_eq_zero_iff, Nat.shiftLeft_eq_zero_iff]

theorem signExtend_eq_zero_iff {short long : Nat} (wider : short ≤ long) {value : BitVec short} :
    value.signExtend long = 0 ↔ value = 0 := by
  rw [← BitVec.toInt_inj, BitVec.toInt_signExtend_of_le wider, ← BitVec.toInt_inj]
  simp

namespace Instruction

/-- A load of an upper immediate that is zero, into a register other than the stack pointer. -/
structure LoadsZeroUpper (parcel : Half) : Prop where
  quadrant : bits parcel 1 0 = 0b01
  operation : bits parcel 15 13 = 0b011
  otherRegister : compressedRd parcel ≠ Reg.sp
  sign : bits parcel 12 12 = 0
  immediate : bits parcel 6 2 = 0

/-- The parcels that are reserved, among those that are not half of an instruction of 32 bits: zero,
loads and stores of floating-point numbers, an operation that is not assigned, stack addresses and
adjustments of the stack pointer by zero, loads of an upper immediate that is zero unless they are
without effect, operations of machines of 64 bits, loads from the stack into `x0`, and jumps
through `x0`. -/
inductive Reserved (parcel : Half) : Prop
  | zero (isZero : parcel = 0)
  | floatingPoint (quadrant : bits parcel 1 0 = 0b00 ∨ bits parcel 1 0 = 0b10)
      (operation : bits parcel 15 13 ∈ [0b001, 0b011, 0b101, 0b111])
  | unassigned (quadrant : bits parcel 1 0 = 0b00) (operation : bits parcel 15 13 = 0b100)
  | stackAddress (quadrant : bits parcel 1 0 = 0b00) (operation : bits parcel 15 13 = 0b000)
      (immediate : bits parcel 12 5 = 0)
  | stackAdjustment (quadrant : bits parcel 1 0 = 0b01) (operation : bits parcel 15 13 = 0b011)
      (stackPointer : compressedRd parcel = Reg.sp) (sign : bits parcel 12 12 = 0)
      (immediate : bits parcel 6 2 = 0)
  | upperImmediate (loads : LoadsZeroUpper parcel) (written : compressedRd parcel ≠ Reg.zero)
  | doubleWords (quadrant : bits parcel 1 0 = 0b01) (operation : bits parcel 15 13 = 0b100)
      (group : bits parcel 11 10 = 0b11) (wide : bits parcel 12 12 = 1)
  | stackLoad (quadrant : bits parcel 1 0 = 0b10) (operation : bits parcel 15 13 = 0b010)
      (unwritten : compressedRd parcel = Reg.zero)
  | jump (quadrant : bits parcel 1 0 = 0b10) (operation : bits parcel 15 13 = 0b100)
      (noLink : bits parcel 12 12 = 0) (nowhere : compressedRd parcel = Reg.zero)
      (noMove : compressedRs2 parcel = Reg.zero)

variable {parcel : Half}

theorem immediateLui_eq_zero_iff :
    immediateLui parcel = 0 ↔ bits parcel 12 12 = 0 ∧ bits parcel 6 2 = 0 :=
  (signExtend_eq_zero_iff (by decide)).trans append_eq_zero_iff

theorem immediateAddi16sp_eq_zero_iff :
    immediateAddi16sp parcel = 0 ↔ bits parcel 12 12 = 0 ∧ bits parcel 6 2 = 0 := by
  have joined : bits parcel 6 2 =
      bits parcel 6 6 ++ bits parcel 5 5 ++ bits parcel 4 3 ++ bits parcel 2 2 := by
    simp (disch := decide) only [bits, BitVec.extractLsb,
      BitVec.extractLsb'_append_extractLsb'_eq_extractLsb']
  rw [joined]
  refine (signExtend_eq_zero_iff (by decide)).trans ?_
  simp only [append_eq_zero_iff]
  constructor
  · rintro ⟨⟨⟨⟨⟨sign, bits43⟩, bit5⟩, bit2⟩, bit6⟩, -⟩
    exact ⟨sign, ⟨⟨bit6, bit5⟩, bits43⟩, bit2⟩
  · rintro ⟨sign, ⟨⟨bit6, bit5⟩, bits43⟩, bit2⟩
    exact ⟨⟨⟨⟨⟨sign, bits43⟩, bit5⟩, bit2⟩, bit6⟩, rfl⟩

theorem immediateAddi4spn_eq_zero_iff :
    immediateAddi4spn parcel = 0 ↔ bits parcel 12 5 = 0 := by
  have joined : bits parcel 12 5 =
      bits parcel 12 11 ++ bits parcel 10 7 ++ bits parcel 6 6 ++ bits parcel 5 5 := by
    simp (disch := decide) only [bits, BitVec.extractLsb,
      BitVec.extractLsb'_append_extractLsb'_eq_extractLsb']
  rw [joined]
  refine append_eq_zero_iff.trans ?_
  simp only [append_eq_zero_iff]
  constructor
  · rintro ⟨⟨⟨⟨⟨-, bits107⟩, bits1211⟩, bit5⟩, bit6⟩, -⟩
    exact ⟨⟨⟨bits1211, bits107⟩, bit6⟩, bit5⟩
  · rintro ⟨⟨⟨bits1211, bits107⟩, bit6⟩, bit5⟩
    exact ⟨⟨⟨⟨⟨rfl, bits107⟩, bits1211⟩, bit5⟩, bit6⟩, rfl⟩

/-! ## What parcels expand to -/

/-- What the expansion of a parcel can give: a refusal if it is reserved, or an instruction that
does not reach beyond registers and memory. -/
inductive Expansion (parcel : Half) : Except DecodeError Instruction → Prop
  | refused (reserved : Reserved parcel) (failure : DecodeError) : Expansion parcel (.error failure)
  | plain {instruction : Instruction} (plain : instruction.isSystem = false) :
      Expansion parcel (.ok instruction)

theorem expansion_quadrant0 (quadrant : bits parcel 1 0 = 0b00) :
    Expansion parcel (expandQuadrant0 parcel) := by
  unfold expandQuadrant0
  split
  · rename_i operation
    split
    · rename_i immediate
      have isZero := immediateAddi4spn_eq_zero_iff.1 immediate
      exact .refused (.stackAddress quadrant operation isZero) _
    · exact .plain rfl
  · exact .plain rfl
  · exact .plain rfl
  · rename_i notAddress notLoad notStore
    have others : ∀ operation : BitVec 3, operation ≠ 0b000 → operation ≠ 0b010 →
        operation ≠ 0b110 →
        operation = 0b100 ∨ operation ∈ [0b001, 0b011, 0b101, (0b111 : BitVec 3)] := by
      decide
    rcases others _ notAddress notLoad notStore with operation | operation
    · exact .refused (.unassigned quadrant operation) _
    · exact .refused (.floatingPoint (.inl quadrant) operation) _

theorem expansion_upper (quadrant : bits parcel 1 0 = 0b01)
    (operation : bits parcel 15 13 = 0b011) : Expansion parcel (expandUpper parcel) := by
  unfold expandUpper
  dsimp only
  split
  · rename_i stackPointer
    split
    · rename_i immediate
      obtain ⟨sign, low⟩ := immediateAddi16sp_eq_zero_iff.1 immediate
      exact .refused (.stackAdjustment quadrant operation stackPointer sign low) _
    · exact .plain rfl
  · rename_i otherRegister
    split
    · exact .plain rfl
    · rename_i written
      split
      · rename_i immediate
        obtain ⟨sign, low⟩ := immediateLui_eq_zero_iff.1 immediate
        have loads : LoadsZeroUpper parcel := ⟨quadrant, operation, otherRegister, sign, low⟩
        exact .refused (.upperImmediate loads written) _
      · exact .plain rfl

theorem expansion_arithmetic (quadrant : bits parcel 1 0 = 0b01)
    (operation : bits parcel 15 13 = 0b100) : Expansion parcel (expandArithmetic parcel) := by
  unfold expandArithmetic
  dsimp only
  split
  · exact .plain rfl
  · exact .plain rfl
  · exact .plain rfl
  · rename_i group
    split
    · rename_i wide
      have bit : ∀ bit : BitVec 1, bit ≠ 0 → bit = 1 := by decide
      exact .refused (.doubleWords quadrant operation group (bit _ wide)) _
    · split <;> exact .plain rfl

theorem expansion_quadrant1 (quadrant : bits parcel 1 0 = 0b01) :
    Expansion parcel (expandQuadrant1 parcel) := by
  unfold expandQuadrant1
  split
  · exact .plain rfl
  · exact .plain rfl
  · exact .plain rfl
  · rename_i operation
    exact expansion_upper quadrant operation
  · rename_i operation
    exact expansion_arithmetic quadrant operation
  · exact .plain rfl
  · exact .plain rfl
  · exact .plain rfl

theorem expansion_jumpOrMove (quadrant : bits parcel 1 0 = 0b10)
    (operation : bits parcel 15 13 = 0b100) : Expansion parcel (expandJumpOrMove parcel) := by
  unfold expandJumpOrMove
  dsimp only
  split
  · rename_i noLink
    split
    · rename_i noMove
      split
      · rename_i nowhere
        exact .refused (.jump quadrant operation noLink nowhere noMove) _
      · exact .plain rfl
    · exact .plain rfl
  · split
    · split <;> exact .plain rfl
    · exact .plain rfl

theorem expansion_quadrant2 (quadrant : bits parcel 1 0 = 0b10) :
    Expansion parcel (expandQuadrant2 parcel) := by
  unfold expandQuadrant2
  split
  · exact .plain rfl
  · rename_i operation
    split
    · rename_i unwritten
      exact .refused (.stackLoad quadrant operation unwritten) _
    · exact .plain rfl
  · rename_i operation
    exact expansion_jumpOrMove quadrant operation
  · exact .plain rfl
  · rename_i notShift notLoad notJump notStore
    have others : ∀ operation : BitVec 3, operation ≠ 0b000 → operation ≠ 0b010 →
        operation ≠ 0b100 → operation ≠ 0b110 →
        operation ∈ [0b001, 0b011, 0b101, (0b111 : BitVec 3)] := by
      decide
    have operation := others _ notShift notLoad notJump notStore
    exact .refused (.floatingPoint (.inr quadrant) operation) _

/-- A parcel is refused only if it is reserved, and no parcel stands for a privileged instruction or
for one on a control and status register. -/
theorem expansion (compressed : isCompressed parcel = true) :
    Expansion parcel (expand parcel) := by
  unfold expand
  split
  · rename_i isZero
    exact .refused (.zero isZero) _
  · split
    · rename_i quadrant
      exact expansion_quadrant0 quadrant
    · rename_i quadrant
      exact expansion_quadrant1 quadrant
    · rename_i quadrant
      exact expansion_quadrant2 quadrant
    · rename_i long
      exact absurd long (bne_iff_ne.1 compressed)

/-! ## Parcels that are refused -/

section Quadrants

variable (nonzero : parcel ≠ 0)

include nonzero

theorem expand_quadrant0 (quadrant : bits parcel 1 0 = 0b00) :
    expand parcel = expandQuadrant0 parcel := by
  unfold expand
  rw [if_neg nonzero, quadrant]
  rfl

theorem expand_quadrant1 (quadrant : bits parcel 1 0 = 0b01) :
    expand parcel = expandQuadrant1 parcel := by
  unfold expand
  rw [if_neg nonzero, quadrant]
  rfl

theorem expand_quadrant2 (quadrant : bits parcel 1 0 = 0b10) :
    expand parcel = expandQuadrant2 parcel := by
  unfold expand
  rw [if_neg nonzero, quadrant]
  rfl

theorem expand_upper (quadrant : bits parcel 1 0 = 0b01) (operation : bits parcel 15 13 = 0b011) :
    expand parcel = expandUpper parcel := by
  rw [expand_quadrant1 nonzero quadrant]
  unfold expandQuadrant1
  rw [operation]
  rfl

theorem expand_arithmetic (quadrant : bits parcel 1 0 = 0b01)
    (operation : bits parcel 15 13 = 0b100) : expand parcel = expandArithmetic parcel := by
  rw [expand_quadrant1 nonzero quadrant]
  unfold expandQuadrant1
  rw [operation]
  rfl

end Quadrants

theorem Reserved.expand_refuses (reserved : Reserved parcel) :
    ∃ failure, expand parcel = .error failure := by
  by_cases nonzero : parcel = 0
  · exact ⟨_, if_pos nonzero⟩
  cases reserved with
  | zero isZero => exact absurd isZero nonzero
  | floatingPoint quadrant operation =>
      simp only [List.mem_cons, List.not_mem_nil, or_false] at operation
      rcases quadrant with quadrant | quadrant
      · rw [expand_quadrant0 nonzero quadrant]
        unfold expandQuadrant0
        rcases operation with operation | operation | operation | operation <;>
          (rw [operation]; exact ⟨_, rfl⟩)
      · rw [expand_quadrant2 nonzero quadrant]
        unfold expandQuadrant2
        rcases operation with operation | operation | operation | operation <;>
          (rw [operation]; exact ⟨_, rfl⟩)
  | unassigned quadrant operation =>
      rw [expand_quadrant0 nonzero quadrant]
      unfold expandQuadrant0
      rw [operation]
      exact ⟨_, rfl⟩
  | stackAddress quadrant operation immediate =>
      rw [expand_quadrant0 nonzero quadrant]
      unfold expandQuadrant0
      rw [operation]
      exact ⟨_, if_pos (immediateAddi4spn_eq_zero_iff.2 immediate)⟩
  | stackAdjustment quadrant operation stackPointer sign immediate =>
      rw [expand_upper nonzero quadrant operation]
      have isZero := immediateAddi16sp_eq_zero_iff.2 ⟨sign, immediate⟩
      exact ⟨_, (if_pos stackPointer).trans (if_pos isZero)⟩
  | upperImmediate loads written =>
      rw [expand_upper nonzero loads.quadrant loads.operation]
      have isZero := immediateLui_eq_zero_iff.2 ⟨loads.sign, loads.immediate⟩
      exact ⟨_, (if_neg loads.otherRegister).trans ((if_neg written).trans (if_pos isZero))⟩
  | doubleWords quadrant operation group wide =>
      rw [expand_arithmetic nonzero quadrant operation]
      unfold expandArithmetic
      dsimp only
      rw [group]
      exact ⟨_, if_pos (wide ▸ (by decide : (1 : BitVec 1) ≠ 0))⟩
  | stackLoad quadrant operation unwritten =>
      rw [expand_quadrant2 nonzero quadrant]
      unfold expandQuadrant2
      rw [operation]
      exact ⟨_, if_pos unwritten⟩
  | jump quadrant operation noLink nowhere noMove =>
      rw [expand_quadrant2 nonzero quadrant]
      unfold expandQuadrant2
      rw [operation]
      exact ⟨_, (if_pos noLink).trans ((if_pos noMove).trans (if_pos nowhere))⟩

/-- The reserved parcels are those that stand for no instruction. -/
theorem expand_refuses_iff (compressed : isCompressed parcel = true) :
    (∃ failure, expand parcel = .error failure) ↔ Reserved parcel := by
  refine ⟨?_, Reserved.expand_refuses⟩
  rintro ⟨failure, refused⟩
  have expands := expansion compressed
  rw [refused] at expands
  cases expands with
  | refused reserved _ => exact reserved

end Instruction

namespace Machine

open Instruction (Reserved isCompressed)

/-- In a tick of the machine, the instruction at the program counter raises an exception. -/
def TickRaises (machine : Machine) (raised : Exception) : Prop :=
  (executeNext.outcome machine.counted).1 = .error raised

variable {machine fetched : Machine} {parcel : Half}

/-- A tick in which an exception is raised enters its trap, with all registers as they were. -/
theorem tick_of_error {ended : Machine} {raised : Exception}
    (failed : executeNext.outcome machine.counted = (.error raised, ended)) :
    ∃ after, tick.outcome machine = (.two, after) ∧
      machine.hart.Entered (.exception raised) after.hart ∧
      ∀ register, after.hart.x register = machine.hart.x register := by
  have kept := (executeNext_error_hart failed).1
  refine ⟨ended.trapped (.exception raised), ?_, ?_, fun register => ?_⟩
  · change (tickBy executeNext).outcome machine = _
    rw [tickBy_outcome, failed]
  · exact (Hart.entered_enterTrap ended.hart _).after_access kept
  · obtain ⟨tlb, reservation, same⟩ := kept
    refine (ended.hart.x_enterTrap _ register).trans ?_
    rw [same]
    rfl

/-- Decoding fails for the reserved parcels and for no others. -/
theorem decodeFetched_refuses_iff (compressed : isCompressed parcel = true) :
    (∃ failure, decodeFetched (parcel.setWidth 32) = .error failure) ↔ Reserved parcel := by
  rw [← Instruction.expand_refuses_iff compressed, decodeFetched_parcel compressed]
  rcases Instruction.expand parcel with failure | instruction
  · exact ⟨fun _ => ⟨failure, rfl⟩, fun _ => ⟨failure, rfl⟩⟩
  · exact ⟨fun ⟨_, refused⟩ => (nomatch refused), fun ⟨_, refused⟩ => (nomatch refused)⟩

/-- Executing a parcel raises an illegal instruction exactly if it is reserved. -/
theorem executeFetched_illegal_iff (compressed : isCompressed parcel = true) (raw : Word) :
    ((executeFetched (parcel.setWidth 32)).outcome fetched).1 = .error (.illegalInstruction raw) ↔
      Reserved parcel ∧ raw = parcel.setWidth 32 := by
  have expands := Instruction.expansion compressed
  unfold executeFetched
  rw [decodeFetched_parcel compressed]
  constructor
  · intro illegal
    rcases expanded : Instruction.expand parcel with failure | instruction
    · rw [expanded] at expands illegal
      cases expands with
      | refused reserved _ =>
          cases illegal
          exact ⟨reserved, rfl⟩
    · rw [expanded] at expands illegal
      cases expands with
      | plain plain =>
          have can := execute_raisesOnly instruction (parcel.setWidth 32) 2 fetched _ _
            (Prod.ext illegal rfl)
          exact absurd rfl (can.ne_illegal plain raw)
  · rintro ⟨reserved, rfl⟩
    obtain ⟨failure, refused⟩ := reserved.expand_refuses
    rw [refused]
    rfl

/-- When a machine fetches a parcel that is not the first half of an instruction of 32 bits, (1)
decoding it fails exactly if it is reserved, and (2) exactly then the tick raises an illegal
instruction, which is reported as this parcel. (3) That leads to the handler of the trap with all
registers as they were, and the address to return to is that of the parcel. -/
theorem reserved_parcels_trap (aligned : Width.half.Aligned machine.hart.pc)
    (compressed : isCompressed parcel = true)
    (found : (fetchParcel machine.hart.pc).outcome machine.counted = (.ok parcel, fetched)) :
    ((∃ failure, decodeFetched (parcel.setWidth 32) = .error failure) ↔ Reserved parcel) ∧
      (∀ raw, machine.TickRaises (.illegalInstruction raw) ↔
        Reserved parcel ∧ raw = parcel.setWidth 32) ∧
      (Reserved parcel → ∃ after, tick.outcome machine = (.two, after) ∧
        machine.hart.Entered (.exception (.illegalInstruction (parcel.setWidth 32))) after.hart ∧
        (∀ register, after.hart.x register = machine.hart.x register) ∧
        (after.hart.trapRecord after.hart.privilege).epc.bits = machine.hart.pc) := by
  have alignedCounted : Width.half.Aligned machine.counted.hart.pc := aligned
  have wasFetched := fetch_of_parcel alignedCounted compressed found
  have executes : executeNext.outcome machine.counted =
      (executeFetched (parcel.setWidth 32)).outcome fetched :=
    Attempt.outcome_bind_ok wasFetched
  have raises (raw : Word) : machine.TickRaises (.illegalInstruction raw) ↔
      Reserved parcel ∧ raw = parcel.setWidth 32 := by
    unfold TickRaises
    rw [executes]
    exact executeFetched_illegal_iff compressed raw
  refine ⟨decodeFetched_refuses_iff compressed, raises, fun reserved => ?_⟩
  have failed := (raises _).2 ⟨reserved, rfl⟩
  obtain ⟨after, ticked, entered, registers⟩ := tick_of_error (Prod.ext failed rfl)
  exact ⟨after, ticked, entered, registers, entered.epc.trans (clear_lowest_of_aligned aligned)⟩

/-- A program in U-mode that begins with an instruction which only machines of 64 bits have. Its
supervisor handles illegal instructions. -/
def wideProgram : Machine where
  hart :=
    { Hart.initial ⟨0, 0⟩ with
      privilege := .user
      setup := { TrapSetup.reset with medeleg := .ofWord _ 0b100 } }
  bus := .allMemory [0x01, 0x9C]

/-- The supervisor finds the parcel in its trap value register. -/
theorem wideProgram_traps :
    Width.half.Aligned wideProgram.hart.pc ∧ isCompressed 0x9C01 = true ∧
      ((fetchParcel wideProgram.hart.pc).outcome wideProgram.counted).1 = .ok 0x9C01 ∧
      Reserved 0x9C01 ∧ wideProgram.TickRaises (.illegalInstruction 0x9C01) ∧
      (tick.outcome wideProgram).2.hart.readCsr .stval = 0x9C01 ∧
      ∀ register, (tick.outcome wideProgram).2.hart.x register = wideProgram.hart.x register := by
  have aligned : Width.half.Aligned wideProgram.hart.pc := by decide
  have compressed : isCompressed 0x9C01 = true := by decide
  have found : ((fetchParcel wideProgram.hart.pc).outcome wideProgram.counted).1 = .ok 0x9C01 := rfl
  have reserved : Reserved 0x9C01 := .doubleWords rfl rfl rfl rfl
  obtain ⟨-, raises, traps⟩ :=
    reserved_parcels_trap aligned compressed (Prod.ext found rfl)
  obtain ⟨after, ticked, -, registers, -⟩ := traps reserved
  have isAfter : (tick.outcome wideProgram).2 = after := congrArg Prod.snd ticked
  exact ⟨aligned, compressed, found, reserved, (raises _).2 ⟨reserved, rfl⟩, by decide +kernel,
    isAfter ▸ registers⟩

/-- A machine that is about to load zero as the upper immediate of `x0`. -/
def hintMachine : Machine := initial ⟨0, 0⟩ (.allMemory [0x01, 0x60])

/-- Loads of an upper immediate that is zero are not all reserved: the one into `x0` does nothing,
and the machine goes on behind it. -/
theorem hintMachine_goes_on :
    Instruction.LoadsZeroUpper 0x6001 ∧ Width.half.Aligned hintMachine.hart.pc ∧
      isCompressed 0x6001 = true ∧
      ((fetchParcel hintMachine.hart.pc).outcome hintMachine.counted).1 = .ok 0x6001 ∧
      (∀ raised, ¬ hintMachine.TickRaises raised) ∧
      (tick.outcome hintMachine).1 = .one ∧ (tick.outcome hintMachine).2.hart.pc = 2 := by
  have loads : Instruction.LoadsZeroUpper 0x6001 := ⟨rfl, rfl, by decide, rfl, rfl⟩
  have completes : (executeNext.outcome hintMachine.counted).1 = .ok () := rfl
  have never (raised : Exception) : ¬ hintMachine.TickRaises raised :=
    fun raises => nomatch completes.symm.trans raises
  exact ⟨loads, by decide, by decide, rfl, never, by decide +kernel, by decide +kernel⟩

end Machine

end Rv32
