import Rv32.Proofs.CsrInstructions
import Rv32.Proofs.CsrStorage

/-!
# Writes to control and status registers that change nothing

What a register shows is legal for it, so the register takes it over as it is: a field that refuses
a value shows one that it accepts, a bit that software cannot write is shown as it stays, and a
window on another register shows no bit that it does not write. A write of such contents changes
nothing, and the caches survive it (`Hart.absorbs_readCsr`). What a write has made of a register
absorbs the same write again (`Hart.absorbs_writeCsr`), although what is shown then may not be what
was written.

So an instruction that sets or clears no bits writes nothing new, and does what a mere read does
(`Machine.csr_write_back`).
-/

namespace Rv32

namespace Word

/-- Bits that are written back are the same. -/
theorem select_same (word selected : Word) :
    word &&& ~~~selected ||| word &&& selected = word := by
  refine BitVec.eq_of_getLsbD_eq fun bit _ => ?_
  rw [getLsbD_select, ite_self]

/-- Only the selected bits of a value are written. -/
theorem and_select (value selected : Word) :
    value &&& selected &&& selected = value &&& selected := by
  rw [BitVec.and_assoc, BitVec.and_self]

theorem select_select (word value selected : Word) :
    (word &&& ~~~selected ||| value &&& selected) &&& ~~~selected ||| value &&& selected =
      word &&& ~~~selected ||| value &&& selected := by
  rw [select_outside]

/-- A field after a write depends on no other field from before. -/
theorem extract_select {first second : Word} {start length : Nat}
    (same : first.extractLsb' start length = second.extractLsb' start length)
    (value selected : Word) :
    (first &&& ~~~selected ||| value &&& selected).extractLsb' start length =
      (second &&& ~~~selected ||| value &&& selected).extractLsb' start length := by
  simp only [BitVec.extractLsb'_or, BitVec.extractLsb'_and, same]

end Word

/-! ## Fields -/

/-- A write of the bits that a window shows changes nothing. -/
theorem Warl.merge_masked {legal : Word} (register : Warl legal) (selected : Word) :
    register.merge (register.bits &&& selected) selected = register := by
  unfold merge
  rw [Word.and_select, Word.select_same, ofWord_bits]

theorem Warl.merge_merge {legal : Word} (register : Warl legal) (value selected : Word) :
    (register.merge value selected).merge value selected = register.merge value selected := by
  refine eq_of_bits (BitVec.eq_of_getLsbD_eq fun bit _ => ?_)
  unfold merge
  rw [bits_ofWord, BitVec.getLsbD_and, Word.getLsbD_select, bits_ofWord, BitVec.getLsbD_and,
    Word.getLsbD_select]
  cases selected.getLsbD bit <;> cases legal.getLsbD bit <;> simp

namespace Status

theorem eq_of_toWord {first second : Status} (same : first.toWord = second.toWord) :
    first = second :=
  calc first
    _ = ofFields first.toWord .user := (first.ofFields_toWord .user).symm
    _ = second := by rw [same, ofFields_toWord]

/-- Contents that are written back are the same, whatever bits are selected. -/
theorem write_toWord (status : Status) (selected : Word) :
    status.write status.toWord selected = status := by
  unfold write
  rw [Word.select_same, ofFields_toWord]

/-- Through the window of S-mode too, contents that are written back are the same. -/
theorem write_supervisorWord (status : Status) :
    status.write status.supervisorWord supervisorMask = status :=
  calc status.write status.supervisorWord supervisorMask
    _ = status.write status.toWord supervisorMask := by
      unfold write supervisorWord
      rw [Word.and_select]
    _ = status := status.write_toWord supervisorMask

/-- A level that a write refused is refused again, and one that was taken over is there already. -/
theorem Written.level_again {before value selected after again : Word}
    (once : Written before value selected after) (twice : Written after value selected again) :
    again.extractLsb' 11 2 = after.extractLsb' 11 2 := by
  have level := once.level
  have levelAgain := twice.level
  dsimp only at level levelAgain
  split at level
  · rename_i reserved
    rw [Word.extract_select level, if_pos reserved] at levelAgain
    exact levelAgain
  · rename_i legal
    rw [Word.extract_select level, Word.select_select, if_neg legal] at levelAgain
    exact levelAgain.trans level.symm

/-- A write that is repeated changes nothing more. -/
theorem Written.again {before value selected after again : Word}
    (once : Written before value selected after) (twice : Written after value selected again) :
    again = after := by
  have plain : ∀ bit, plainBits.getLsbD bit = true → again.getLsbD bit = after.getLsbD bit := by
    intro bit isPlain
    rw [twice.plain bit isPlain, once.plain bit isPlain]
    split <;> rfl
  have extension : again.extractLsb' 13 2 = after.extractLsb' 13 2 := by
    refine BitVec.eq_of_getLsbD_eq fun bit inside => ?_
    rw [BitVec.getLsbD_extractLsb', BitVec.getLsbD_extractLsb']
    obtain rfl | rfl : bit = 0 ∨ bit = 1 := by omega
    · rw [plain 13 rfl]
    · rw [plain 14 rfl]
  refine eq_of_fields plain (once.level_again twice) ?_ twice.others
  rw [twice.summary, once.summary, extension]

theorem write_write (status : Status) (value selected : Word) :
    (status.write value selected).write value selected = status.write value selected :=
  eq_of_toWord ((status.written_write value selected).again (written_write _ value selected))

theorem translationDiffers_self (status : Status) : status.translationDiffers status = false :=
  translationDiffers_eq_false_iff.2 ⟨rfl, rfl, fun _ => rfl⟩

end Status

namespace Interrupts

theorem writeSip_sip (interrupts : Interrupts) :
    interrupts.writeSip interrupts.sip = interrupts := by
  unfold writeSip sip
  dsimp only
  rw [Word.and_select, Word.select_same]

theorem writeSie_sie (interrupts : Interrupts) :
    interrupts.writeSie interrupts.sie = interrupts := by
  unfold writeSie sie
  rw [Warl.merge_masked]

theorem writeMip_mip (interrupts : Interrupts) :
    interrupts.writeMip interrupts.mip = interrupts := by
  unfold writeMip
  rw [Word.select_same]

theorem writeMip_writeMip (interrupts : Interrupts) (value : Word) :
    (interrupts.writeMip value).writeMip value = interrupts.writeMip value := by
  unfold writeMip
  dsimp only
  rw [Word.select_select]

theorem writeSip_writeSip (interrupts : Interrupts) (value : Word) :
    (interrupts.writeSip value).writeSip value = interrupts.writeSip value := by
  unfold writeSip
  dsimp only
  rw [Word.select_select]

theorem writeSie_writeSie (interrupts : Interrupts) (value : Word) :
    (interrupts.writeSie value).writeSie value = interrupts.writeSie value := by
  unfold writeSie
  dsimp only
  rw [Warl.merge_merge]

end Interrupts

/-- A level that may write to an address may read there. -/
theorem CsrAddress.checkAccess_of_writes {address : CsrAddress} {level : Privilege} {granted : Unit}
    (allowed : address.checkAccess level true = .ok granted) :
    address.checkAccess level false = .ok granted := by
  unfold checkAccess at allowed ⊢
  split at allowed
  · cases allowed
  · rename_i valid
    rw [if_neg valid]
    split at allowed
    · cases allowed
    · exact allowed

namespace Hart

/-! ## Registers -/

/-- A counter consists of its halves. -/
theorem halves_append (cycles : DoubleWord) :
    ((cycles.extractLsb' 32 32 : Word) ++ (cycles.setWidth 32 : Word) : DoubleWord) = cycles := by
  rw [BitVec.setWidth_eq_extractLsb' (by decide)]
  exact cycles.append_halves

/-- A write of the status that leaves it as it is does not cost the caches. -/
theorem writeStatus_of_same {hart : Hart} {value selected : Word}
    (same : hart.status.write value selected = hart.status) :
    hart.writeStatus value selected = pure hart := by
  unfold writeStatus
  rw [same]
  exact if_neg (by rw [hart.status.translationDiffers_self]; exact Bool.false_ne_true)

theorem writeStatus_again (hart : Hart) (value selected : Word) :
    let once := (hart.writeStatus value selected).value
    once.writeStatus value selected = pure once := by
  obtain ⟨tlb, written⟩ := hart.value_writeStatus value selected
  rw [written]
  exact writeStatus_of_same (hart.status.write_write value selected)

/-- A write of the translation register that leaves it as it is does not cost the caches. -/
theorem writeSatp_of_same {hart : Hart} {value : Word} (same : Warl.ofWord _ value = hart.satp) :
    hart.writeSatp value = pure hart := if_pos same

theorem writeSatp_again (hart : Hart) (value : Word) :
    let once := (hart.writeSatp value).value
    once.writeSatp value = pure once := by
  obtain ⟨tlb, written⟩ := hart.value_writeSatp value
  rw [written]
  exact writeSatp_of_same rfl

/-- A write of `value` to a register changes nothing and reports nothing. -/
def Absorbs (hart : Hart) (register : Csr) (value : Word) : Prop :=
  hart.writeCsr register value = pure hart

/-- A register absorbs its own contents. -/
theorem absorbs_readCsr (hart : Hart) (register : Csr) :
    hart.Absorbs register (hart.readCsr register) := by
  unfold Absorbs
  cases register with
  | sstatus => exact writeStatus_of_same hart.status.write_supervisorWord
  | mstatus => exact writeStatus_of_same (hart.status.write_toWord _)
  | satp => exact writeSatp_of_same hart.satp.ofWord_bits
  | sie =>
      change pure { hart with interrupts := hart.interrupts.writeSie hart.interrupts.sie } = _
      rw [Interrupts.writeSie_sie]
  | sip =>
      change pure { hart with interrupts := hart.interrupts.writeSip hart.interrupts.sip } = _
      rw [Interrupts.writeSip_sip]
  | mip =>
      change pure { hart with interrupts := hart.interrupts.writeMip hart.interrupts.mip } = _
      rw [Interrupts.writeMip_mip]
  | mideleg | mie | stvec | scounteren | medeleg | mtvec | mcounteren | sepc | mepc =>
      unfold writeCsr readCsr
      dsimp only [Interrupts.writeMideleg, Interrupts.writeMie]
      rw [Warl.ofWord_bits]
  | mcycle | minstret | mcycleh | minstreth =>
      unfold writeCsr readCsr
      dsimp only
      rw [halves_append]
  | _ => rfl

/-- A register absorbs what was written to it last. -/
theorem absorbs_writeCsr (hart : Hart) (register : Csr) (value : Word) :
    (hart.writeCsr register value).value.Absorbs register value := by
  unfold Absorbs
  cases register with
  | sstatus | mstatus => exact hart.writeStatus_again value _
  | satp => exact hart.writeSatp_again value
  | sie =>
      change pure { hart with
        interrupts := (hart.interrupts.writeSie value).writeSie value } = _
      rw [Interrupts.writeSie_writeSie]
      rfl
  | sip =>
      change pure { hart with
        interrupts := (hart.interrupts.writeSip value).writeSip value } = _
      rw [Interrupts.writeSip_writeSip]
      rfl
  | mip =>
      change pure { hart with
        interrupts := (hart.interrupts.writeMip value).writeMip value } = _
      rw [Interrupts.writeMip_writeMip]
      rfl
  | mcycle | minstret =>
      let cycles : DoubleWord := (hart.mcycle.extractLsb' 32 32 : Word) ++ value
      change pure { hart with mcycle := (cycles.extractLsb' 32 32 : Word) ++ value } = _
      rw [high_of_writeLow]
      rfl
  | mcycleh | minstreth =>
      let cycles : DoubleWord := value ++ (hart.mcycle.setWidth 32 : Word)
      change pure { hart with mcycle := value ++ (cycles.setWidth 32 : Word) } = _
      rw [low_of_writeHigh]
      rfl
  -- The rest takes the value over with no regard to what was there.
  | _ => rfl

/-- A write of the old contents may as well be left out. -/
theorem writtenIf_readCsr (hart : Hart) (writes : Bool) (register : Csr) :
    hart.writtenIf writes register (hart.readCsr register) = hart := by
  cases writes with
  | false => rfl
  | true => exact congrArg Logged.value (hart.absorbs_readCsr register)

/-- Who may write a register may read it. -/
theorem checkCsr_of_writes {hart : Hart} {address : CsrAddress} {writes : Bool}
    (allowed : hart.checkCsr address writes = .ok ()) : hart.checkCsr address false = .ok () := by
  cases writes with
  | false => exact allowed
  | true =>
      unfold checkCsr at allowed ⊢
      rcases access : CsrAddress.checkAccess address hart.privilege true with refusal | granted
      · rw [access] at allowed
        cases allowed
      · rw [access] at allowed
        rw [CsrAddress.checkAccess_of_writes access]
        exact allowed

end Hart

/-- No bits are set and none cleared if the operand names none. -/
theorem CsrOp.eval_zero {op : CsrOp} (changes : op ≠ .readWrite) (old : Word) :
    op.eval old 0 = old := by
  cases op with
  | readWrite => exact absurd rfl changes
  | readSet => exact BitVec.or_zero
  | readClear =>
      change old &&& ~~~0#32 = old
      rw [BitVec.not_zero, BitVec.and_allOnes]

namespace Machine

/-- An instruction that sets or clears no bits reads the register and goes on. -/
theorem execute_reads {machine : Machine} (source : CsrSource) {op : CsrOp} {number : BitVec 12}
    {register : Csr} (changes : op ≠ .readWrite) (none : source.operand machine.hart = 0)
    (allowed : machine.hart.checkCsr (number.setWidth 16) (op.writes source) = .ok ())
    (found : Csr.ofAddress? (number.setWidth 16) = some register) (rd : Reg) (raw length : Word) :
    (execute (source.instruction op rd number) raw length).outcome machine =
      (.ok (), { machine with
        hart := (machine.hart.setX rd (machine.hart.readCsr register)).advance length }) := by
  rw [execute_source, accessCsr_granted allowed found, none, CsrOp.eval_zero changes,
    Hart.writtenIf_readCsr]

/-- (1) Every register that can be read takes its own contents back with nothing changed, and a
write that is repeated changes nothing more. (2) So an instruction that sets or clears bits, and is
told to do so with none, does what a mere read does if it does not trap: no register of this kind
changes and the caches do not, nor does the bus. -/
theorem csr_write_back (machine : Machine) :
    let hart := machine.hart
    (∀ address old, hart.readAddress address = .ok old →
      hart.writeAddress address old = .ok (pure hart) ∧
        ∀ value, ∃ once, hart.writeAddress address value = .ok once ∧
          once.value.writeAddress address value = .ok (pure once.value)) ∧
      ∀ op ≠ CsrOp.readWrite, ∀ source : CsrSource, source.operand hart = 0 →
        ∀ rd number raw length after,
          (execute (source.instruction op rd number) raw length).outcome machine =
              (.ok (), after) →
          (execute (.csr .readSet rd number Reg.zero) raw length).outcome machine =
              (.ok (), after) ∧
            (∀ register, after.hart.readCsr register = hart.readCsr register) ∧
            after.hart.tlb = hart.tlb ∧ after.bus = machine.bus := by
  intro hart
  constructor
  · intro address old reads
    cases found : Csr.ofAddress? address with
    | none =>
        unfold Hart.readAddress at reads
        rw [found] at reads
        cases reads
    | some register =>
        rw [Hart.readAddress_of_found found] at reads
        cases reads
        refine ⟨?_, fun value => ⟨_, Hart.writeAddress_of_found found value, ?_⟩⟩
        · rw [Hart.writeAddress_of_found found, hart.absorbs_readCsr]
        · rw [Hart.writeAddress_of_found found, hart.absorbs_writeCsr]
  · intro op changes source none rd number raw length after completes
    by_cases denied :
        (∃ refusal, hart.checkCsr (number.setWidth 16) (op.writes source) = .error refusal) ∨
          Csr.ofAddress? (number.setWidth 16) = .none
    · rw [execute_source, accessCsr_refused denied] at completes
      cases completes
    · obtain ⟨register, allowed, found⟩ := Hart.granted_of_not_denied denied
      have merely : CsrOp.readSet ≠ .readWrite := by decide
      have readsOnly := execute_reads (.register Reg.zero) merely hart.x_zero
        (Hart.checkCsr_of_writes allowed) found rd raw length
      rw [execute_reads source changes none allowed found] at completes
      cases completes
      exact ⟨readsOnly, fun other => rfl, rfl, rfl⟩

/-- A machine in S-mode that translates its addresses, with all registers zero. -/
def translatingMachine : Machine where
  hart := { Hart.initial .standard with privilege := .supervisor, satp := .ofWord _ 0x80000000 }
  bus := .empty

/-- It takes its translation register back from the host, and from an instruction that sets the bits
named by `x5`. -/
theorem translatingMachine_write_back :
    translatingMachine.hart.readAddress 0x180 = .ok 0x80000000 ∧
      translatingMachine.hart.writeAddress 0x180 0x80000000 = .ok (pure translatingMachine.hart) ∧
      ∃ after, (execute (.csr .readSet 1 0x180 5) 0x1802A0F3 4).outcome translatingMachine =
          (.ok (), after) ∧
        after.hart.x 1 = 0x80000000 ∧ after.hart.readCsr .satp = 0x80000000 ∧
        after.hart.tlb = translatingMachine.hart.tlb := by
  have reads : translatingMachine.hart.readAddress 0x180 = .ok 0x80000000 := rfl
  obtain ⟨writesBack, setsNone⟩ := csr_write_back translatingMachine
  obtain ⟨-, registers, caches, -⟩ :=
    setsNone .readSet (by decide) (.register 5) rfl 1 0x180 0x1802A0F3 4 _ rfl
  exact ⟨reads, (writesBack 0x180 _ reads).1, _, rfl, rfl, registers .satp, caches⟩

end Machine

end Rv32
