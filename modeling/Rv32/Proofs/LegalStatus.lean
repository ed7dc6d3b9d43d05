import Mathlib.Logic.Relation
import Mathlib.Tactic.IntervalCases
import Rv32.Proofs.CsrAccess
import Rv32.Proofs.TranslationContext

/-!
# What the status register can hold

`Status.Legal` are the words in which no bit outside the fields is set, the level to return to from
M-mode is not the reserved one, and the summary bit says whether extension state is dirty. These are
the contents of statuses and no others (`Status.legal_iff`), and `Status.ofWord?` accepts them alone.
Writes, setters, traps and returns lead from a reset to all of them.

`Status.Written` says in terms of words what a write does: it takes the selected bits over, except
that a reserved level is passed over and the summary bit follows its field. The answer of a write
decides about the cached translations, and says exactly whether anything changed that loads and
stores depend on (`Status.translationDiffers_eq_false_iff`).
-/

namespace Rv32

namespace Word

/-- Words are the same outside a mask if they have the same bits there. -/
theorem and_not_eq_iff {first second mask : Word} :
    first &&& ~~~mask = second &&& ~~~mask ↔
      ∀ bit < 32, mask.getLsbD bit = false → first.getLsbD bit = second.getLsbD bit := by
  constructor
  · intro same bit inside clear
    have bits := congrArg (BitVec.getLsbD · bit) same
    simpa [inside, clear, -BitVec.getLsbD_eq_getElem] using bits
  · intro bits
    refine BitVec.eq_of_getLsbD_eq fun bit inside => ?_
    rw [BitVec.getLsbD_and, BitVec.getLsbD_and, BitVec.getLsbD_not]
    cases clear : mask.getLsbD bit with
    | false => rw [bits bit inside clear]
    | true => rw [Bool.not_true, Bool.and_false, Bool.and_false, Bool.and_false]

/-- Words with the same field of two bits have these bits in common. -/
theorem bits_of_extract {first second : Word} {start : Nat}
    (same : first.extractLsb' start 2 = second.extractLsb' start 2) :
    first.getLsbD start = second.getLsbD start ∧
      first.getLsbD (start + 1) = second.getLsbD (start + 1) := by
  have low := congrArg (BitVec.getLsbD · 0) same
  have high := congrArg (BitVec.getLsbD · 1) same
  simp only [BitVec.getLsbD_extractLsb', Nat.zero_lt_two, Nat.one_lt_two, decide_true,
    Bool.true_and] at low high
  exact ⟨low, high⟩

end Word

namespace Status

/-! ## Contents -/

/-- The bits of the fields that take any value, which are all but those of the level to return to
from M-mode and the summary bit. -/
def plainBits : Word := machineMask &&& ~~~0x80001800

/-- What each bit of the status register shows. -/
def shows (status : Status) : Nat → Bool
  | 1 => status.sie
  | 3 => status.mie
  | 5 => status.spie
  | 7 => status.mpie
  | 8 => status.spp
  | 11 => status.mpp.code.getLsbD 0
  | 12 => status.mpp.code.getLsbD 1
  | 13 => status.fs.toBits.getLsbD 0
  | 14 => status.fs.toBits.getLsbD 1
  | 17 => status.mprv
  | 18 => status.sum
  | 19 => status.mxr
  | 20 => status.tvm
  | 21 => status.tw
  | 22 => status.tsr
  | 31 => status.sd
  | _ => false

theorem getLsbD_toWord (status : Status) {bit : Nat} (inside : bit < 32) :
    status.toWord.getLsbD bit = status.shows bit := by
  unfold toWord
  simp only [BitVec.getLsbD_append]
  interval_cases bit <;> simp [shows, xs, ExtensionStatus.toBits]

theorem toWord_and_not_machineMask (status : Status) : status.toWord &&& ~~~machineMask = 0 := by
  refine BitVec.eq_of_getLsbD_eq fun bit inside => ?_
  rw [BitVec.getLsbD_and, BitVec.getLsbD_not, getLsbD_toWord status inside]
  cases implemented : machineMask.getLsbD bit with
  | true => simp
  | false =>
      have shown : status.shows bit = false := by
        interval_cases bit <;> first | rfl | cases implemented
      rw [shown]
      simp

/-- The plain fields of a status read from a word show the bits of that word. -/
theorem getLsbD_ofFields (word : Word) (mpp : Privilege) {bit : Nat}
    (plain : plainBits.getLsbD bit = true) :
    (ofFields word mpp).toWord.getLsbD bit = word.getLsbD bit := by
  have places : ∀ bit < 32, plainBits.getLsbD bit = true →
      bit ∈ [1, 3, 5, 7, 8, 13, 14, 17, 18, 19, 20, 21, 22] := by decide
  have inside : bit < 32 := BitVec.lt_of_getLsbD plain
  have place := places bit inside plain
  simp only [List.mem_cons, List.not_mem_nil, or_false] at place
  rw [getLsbD_toWord _ inside]
  rcases place with
    rfl | rfl | rfl | rfl | rfl | rfl | rfl | rfl | rfl | rfl | rfl | rfl | rfl <;>
    simp [shows, ofFields]

/-- The level of a status read from a word is the one that the word spells, unless that is
reserved. -/
theorem extract_mpp_ofFields (word : Word) (mpp : Privilege) :
    (ofFields word mpp).toWord.extractLsb' 11 2 =
      if word.extractLsb' 11 2 = PrivilegeCode.reserved then mpp.code
      else word.extractLsb' 11 2 := by
  rw [extract_mpp]
  unfold ofFields
  dsimp only
  generalize word.extractLsb' 11 2 = code
  revert code
  cases mpp <;> decide

theorem extract_fs_ofFields (word : Word) (mpp : Privilege) :
    (ofFields word mpp).toWord.extractLsb' 13 2 = word.extractLsb' 13 2 := by
  rw [extract_fs]
  exact ExtensionStatus.toBits_ofBits _

/-- The summary bit says whether extension state is dirty. -/
theorem summary_toWord (status : Status) :
    status.toWord.getLsbD 31 = decide (status.toWord.extractLsb' 13 2 = 3) := by
  rw [getLsbD_toWord status (by decide), extract_fs]
  unfold shows sd
  cases status.fs <;> rfl

/-- Words are the same if they spell the same fields and have the same bits besides. -/
theorem eq_of_fields {first second : Word}
    (plain : ∀ bit, plainBits.getLsbD bit = true → first.getLsbD bit = second.getLsbD bit)
    (level : first.extractLsb' 11 2 = second.extractLsb' 11 2)
    (summary : first.getLsbD 31 = second.getLsbD 31)
    (others : first &&& ~~~machineMask = second &&& ~~~machineMask) : first = second := by
  have places : ∀ bit < 32, plainBits.getLsbD bit = true ∨ bit = 11 ∨ bit = 12 ∨ bit = 31 ∨
      machineMask.getLsbD bit = false := by decide
  obtain ⟨low, high⟩ := Word.bits_of_extract level
  refine BitVec.eq_of_getLsbD_eq fun bit inside => ?_
  rcases places bit inside with isPlain | rfl | rfl | rfl | clear
  · exact plain bit isPlain
  · exact low
  · exact high
  · exact summary
  · exact Word.and_not_eq_iff.1 others bit inside clear

/-! ## Legal contents -/

/-- The words that the status register can hold. -/
structure Legal (word : Word) : Prop where
  implemented : word &&& ~~~machineMask = 0
  level : word.extractLsb' 11 2 ≠ PrivilegeCode.reserved
  summary : word.getLsbD 31 = decide (word.extractLsb' 13 2 = 3)

theorem legal_toWord (status : Status) : Legal status.toWord where
  implemented := toWord_and_not_machineMask status
  level := by
    rw [extract_mpp]
    exact status.mpp.code_ne_reserved
  summary := summary_toWord status

/-- Legal contents are read back as they are. -/
theorem Legal.toWord_ofFields {word : Word} (legal : Legal word) (mpp : Privilege) :
    (ofFields word mpp).toWord = word := by
  refine eq_of_fields (fun bit plain => getLsbD_ofFields word mpp plain) ?_ ?_ ?_
  · rw [extract_mpp_ofFields, if_neg legal.level]
  · rw [summary_toWord, legal.summary, extract_fs_ofFields]
  · rw [toWord_and_not_machineMask, legal.implemented]

theorem legal_iff {word : Word} : Legal word ↔ ∃ status : Status, status.toWord = word := by
  constructor
  · exact fun legal => ⟨_, legal.toWord_ofFields .user⟩
  · rintro ⟨status, rfl⟩
    exact legal_toWord status

theorem ofWord?_eq_some_iff {word : Word} {status : Status} :
    ofWord? word = some status ↔ status.toWord = word := by
  unfold ofWord?
  dsimp only
  constructor
  · intro found
    split at found
    · rename_i same
      cases found
      exact same
    · cases found
  · rintro rfl
    rw [ofFields_toWord, if_pos rfl]

/-- A word is accepted exactly if it is legal. -/
theorem isSome_ofWord?_iff {word : Word} : (ofWord? word).isSome = true ↔ Legal word := by
  rw [Option.isSome_iff_exists, legal_iff]
  exact exists_congr fun _ => ofWord?_eq_some_iff

/-! ## Changes -/

/-- The fields of one bit that take any value. -/
inductive Flag where
  | sie
  | mie
  | spie
  | mpie
  | mprv
  | sum
  | mxr
  | tvm
  | tw
  | tsr

/-- The status with a field of one bit set to a value. -/
def setFlag (status : Status) (flag : Flag) (value : Bool) : Status :=
  match flag with
  | .sie => { status with sie := value }
  | .mie => { status with mie := value }
  | .spie => { status with spie := value }
  | .mpie => { status with mpie := value }
  | .mprv => { status with mprv := value }
  | .sum => { status with sum := value }
  | .mxr => { status with mxr := value }
  | .tvm => { status with tvm := value }
  | .tw => { status with tw := value }
  | .tsr => { status with tsr := value }

/-- What can happen to the status register: a write, the setting of one field, and a trap of a hart
or a return from one. -/
inductive Change : Status → Status → Prop
  | write (status : Status) (value selected : Word) : Change status (status.write value selected)
  | flag (status : Status) (flag : Flag) (value : Bool) : Change status (status.setFlag flag value)
  | mpp (status : Status) (code : PrivilegeCode) : Change status (status.setMppCode code)
  | spp (status : Status) (code : PrivilegeCode) : Change status (status.setSppCode code)
  | fs (status : Status) (value : ExtensionStatus) : Change status { status with fs := value }
  | trap (hart : Hart) (cause : Cause) : Change hart.status (hart.enterTrap cause).value.status
  | returnFromMachine (hart : Hart) : Change hart.status hart.returnFromMachine.value.status
  | returnFromSupervisor (hart : Hart) : Change hart.status hart.returnFromSupervisor.value.status

/-- Changes lead from a reset to the status. -/
def Reached : Status → Prop := Relation.ReflTransGen Change reset

/-- A write of all bits takes legal contents over as they are. -/
theorem write_allOnes (before status : Status) :
    before.write status.toWord (BitVec.allOnes 32) = status := by
  unfold write
  rw [BitVec.not_allOnes, BitVec.and_zero, BitVec.zero_or, BitVec.and_allOnes, ofFields_toWord]

theorem reached (status : Status) : Reached status := by
  have change := Change.write reset status.toWord (BitVec.allOnes 32)
  rw [write_allOnes] at change
  exact .single change

/-! ## Writes -/

/-- What a write of those bits of `value` that `selected` names makes of contents. The level is
taken over or kept as a whole. -/
structure Written (before value selected after : Word) : Prop where
  plain : ∀ bit, plainBits.getLsbD bit = true →
    after.getLsbD bit = if selected.getLsbD bit then value.getLsbD bit else before.getLsbD bit
  level :
    let chosen := (before &&& ~~~selected ||| value &&& selected).extractLsb' 11 2
    after.extractLsb' 11 2 =
      if chosen = PrivilegeCode.reserved then before.extractLsb' 11 2 else chosen
  summary : after.getLsbD 31 = decide (after.extractLsb' 13 2 = 3)
  others : after &&& ~~~machineMask = before &&& ~~~machineMask

theorem written_write (status : Status) (value selected : Word) :
    Written status.toWord value selected (status.write value selected).toWord where
  plain bit isPlain := by
    unfold write
    rw [getLsbD_ofFields _ _ isPlain, Word.getLsbD_select]
  level := by
    unfold write
    rw [extract_mpp_ofFields, extract_mpp]
  summary := summary_toWord _
  others := by rw [toWord_and_not_machineMask, toWord_and_not_machineMask]

/-- The level in whose name loads and stores are made while the hart runs at `level`. -/
def dataLevel (status : Status) (level : Privilege) : Privilege :=
  if status.mprv then status.mpp else level

theorem effectiveLevel_eq_iff {before after : Status} :
    (∀ (hart : Hart) kind, Machine.effectiveLevel { hart with status := after } kind =
        Machine.effectiveLevel { hart with status := before } kind) ↔
      ∀ level, after.dataLevel level = before.dataLevel level := by
  constructor
  · exact fun same level => same { Hart.initial .standard with privilege := level } .load
  · intro same hart kind
    cases kind with
    | fetch => rfl
    | load => exact same hart.privilege
    | store => exact same hart.privilege

theorem dataLevel_eq_iff {before after : Status} :
    (∀ level, after.dataLevel level = before.dataLevel level) ↔
      before.mprv = after.mprv ∧ (before.mprv = false ∨ before.mpp = after.mpp) := by
  constructor
  · intro levels
    -- A level that is lent is the same at both ends, and one that is not is different there.
    have user := levels .user
    have machine := levels .machine
    unfold dataLevel at user machine
    cases lent : before.mprv <;> cases lentAfter : after.mprv <;>
      rw [lent, lentAfter] at user machine
    · exact ⟨rfl, .inl rfl⟩
    · exact absurd (user.symm.trans machine) nofun
    · exact absurd (user.trans machine.symm) nofun
    · exact ⟨rfl, .inr user.symm⟩
  · rintro ⟨mprv, mpp⟩ level
    unfold dataLevel
    rw [← mprv]
    rcases mpp with clear | mpp
    · rw [clear]
      rfl
    · rw [mpp]

/-- The answer of a write says exactly whether something changed that loads and stores depend on:
one of two permissions, or the level in whose name they are made. -/
theorem translationDiffers_eq_false_iff {before after : Status} :
    before.translationDiffers after = false ↔
      after.sum = before.sum ∧ after.mxr = before.mxr ∧
        ∀ level, after.dataLevel level = before.dataLevel level := by
  rw [dataLevel_eq_iff]
  unfold translationDiffers
  simp only [Bool.or_eq_false_iff, Bool.and_eq_false_iff, bne_eq_false_iff_eq]
  constructor
  · rintro ⟨⟨⟨mprv, sum⟩, mxr⟩, mpp⟩
    exact ⟨sum.symm, mxr.symm, mprv, mpp⟩
  · rintro ⟨sum, mxr, mprv, mpp⟩
    exact ⟨⟨⟨mprv, sum.symm⟩, mxr.symm⟩, mpp⟩

/-- (1) Changes lead from a reset to exactly the contents that are accepted for the register, and
(2) these are the legal ones. (3) A write makes of contents what its rules say, and (4) answers that
nothing changed for loads and stores exactly if no permission of theirs did, nor the level in whose
name any hart makes them. -/
theorem contents_exact :
    (∀ word, (∃ status, Reached status ∧ status.toWord = word) ↔ (ofWord? word).isSome = true) ∧
      (∀ word, (ofWord? word).isSome = true ↔ Legal word) ∧
      ∀ (status : Status) (value selected : Word),
        let after := status.write value selected
        Written status.toWord value selected after.toWord ∧
          (status.translationDiffers after = false ↔
            after.sum = status.sum ∧ after.mxr = status.mxr ∧
              ∀ (hart : Hart) kind, Machine.effectiveLevel { hart with status := after } kind =
                Machine.effectiveLevel { hart with status := status } kind) := by
  refine ⟨fun word => ?_, fun word => isSome_ofWord?_iff, fun status value selected => ?_⟩
  · rw [isSome_ofWord?_iff, legal_iff]
    exact exists_congr fun status => and_iff_right (reached status)
  · refine ⟨written_write status value selected, ?_⟩
    rw [effectiveLevel_eq_iff]
    exact translationDiffers_eq_false_iff

end Status

end Rv32
