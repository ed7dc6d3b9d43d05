import Rv32.Proofs.SnapshotCompleteness
import Rv32.Snapshot.Codec

/-!
# Saved snapshots

A snapshot is saved as bytes and read back off the start of them. `ByteReader.Reads` says of a
reader that it takes a value off exactly those bytes that begin with what the writer makes of it.
The rule for binding readers carries this from bytes to words and from the fields of a snapshot to
the whole (`Snapshot.decode?_eq_some_iff`).

So the format is free of prefixes: what is saved of a hart is read back whatever follows it, a part
of it is not read at all, and harts are saved alike only if their snapshots are the same.
-/

namespace Rv32

/-! ## Readers and writers -/

namespace ByteReader

variable {α β : Type} {reader : ByteReader α} {write : α → List Byte}

/-- The reader takes a value off the start of some bytes exactly if they begin with what is written
for the value. -/
def Reads (reader : ByteReader α) (write : α → List Byte) : Prop :=
  ∀ bytes value rest, reader bytes = some (value, rest) ↔ bytes = write value ++ rest

theorem pure_eq_some_iff {value result : α} {bytes rest : List Byte} :
    (pure value : ByteReader α) bytes = some (result, rest) ↔ value = result ∧ bytes = rest := by
  change some (value, bytes) = some (result, rest) ↔ _
  rw [Option.some.injEq, Prod.mk.injEq]

theorem ite_pure_eq_some_iff {condition : Prop} [Decidable condition] {value result : α}
    {other : ByteReader α} {bytes rest : List Byte} :
    (if condition then pure value else other) bytes = some (result, rest) ↔
      condition ∧ value = result ∧ bytes = rest ∨
        ¬ condition ∧ other bytes = some (result, rest) := by
  rcases Decidable.em condition with holds | fails
  · rw [if_pos holds, pure_eq_some_iff]
    simp only [holds, true_and, not_true, false_and, or_false]
  · rw [if_neg fails]
    simp only [fails, false_and, not_false_iff, true_and, false_or]

theorem bind_eq_some_iff {next : α → ByteReader β} {bytes : List Byte}
    {result : β × List Byte} :
    (reader >>= next) bytes = some result ↔
      ∃ value rest, reader bytes = some (value, rest) ∧ next value rest = some result := by
  change (reader bytes >>= fun read => next read.1 read.2) = some result ↔ _
  rw [Option.bind_eq_bind, Option.bind_eq_some_iff]
  exact Prod.exists

theorem Reads.bind_eq_some_iff (reads : reader.Reads write) {next : α → ByteReader β}
    {bytes : List Byte} {result : β × List Byte} :
    (reader >>= next) bytes = some result ↔
      ∃ value rest, bytes = write value ++ rest ∧ next value rest = some result := by
  rw [ByteReader.bind_eq_some_iff]
  exact exists_congr fun value => exists_congr fun rest => and_congr_left fun _ => reads ..

/-- The reader takes a record off the start of some bytes exactly if it is one of `those` and the
bytes begin with what is written for the record. -/
def ReadsThose (reader : ByteReader β) (those : β → Prop) (write : β → List Byte) : Prop :=
  ∀ bytes record rest,
    reader bytes = some (record, rest) ↔ those record ∧ bytes = write record ++ rest

/-- A field of a record is read before the others, by which the record must have the value read. -/
theorem Reads.field (reads : reader.Reads write) (field : β → α) {next : α → ByteReader β}
    {those : β → Prop} {others : β → List Byte}
    (continues : ∀ value,
      (next value).ReadsThose (fun record => those record ∧ field record = value) others) :
    (reader >>= next).ReadsThose those fun record => write (field record) ++ others record := by
  intro bytes record rest
  rw [reads.bind_eq_some_iff]
  constructor
  · rintro ⟨value, middle, rfl, read⟩
    obtain ⟨⟨isThose, rfl⟩, rfl⟩ := (continues value middle record rest).1 read
    exact ⟨isThose, (List.append_assoc ..).symm⟩
  · rintro ⟨isThose, rfl⟩
    exact ⟨_, _, List.append_assoc .., (continues _ _ _ _).2 ⟨⟨isThose, rfl⟩, rfl⟩⟩

theorem readsThose_pure {record : β} {those : β → Prop}
    (only : ∀ value, those value ↔ record = value) :
    (pure record : ByteReader β).ReadsThose those fun _ => [] :=
  fun _ value _ => pure_eq_some_iff.trans (and_congr_left fun _ => (only value).symm)

theorem reads_byte : byte.Reads fun value => [value] := by
  intro bytes value rest
  cases bytes with
  | nil => exact ⟨nofun, nofun⟩
  | cons first others =>
      change some (first, others) = some (value, rest) ↔ _
      rw [Option.some.injEq, Prod.mk.injEq]
      exact List.cons_eq_cons.symm

theorem word_ofBytes (bytes : Nat → Byte) :
    ByteWriter.word (Word.ofBytes bytes) = [bytes 0, bytes 1, bytes 2, bytes 3] := by
  unfold ByteWriter.word
  rw [Word.byte_ofBytes bytes (by decide), Word.byte_ofBytes bytes (by decide),
    Word.byte_ofBytes bytes (by decide), Word.byte_ofBytes bytes (by decide)]

theorem reads_word : word.Reads ByteWriter.word := by
  intro bytes value rest
  unfold word
  simp only [reads_byte.bind_eq_some_iff, pure_eq_some_iff]
  constructor
  · rintro ⟨first, _, rfl, second, _, rfl, third, _, rfl, fourth, _, rfl, rfl, rfl⟩
    have written := word_ofBytes fun
      | 0 => first
      | 1 => second
      | 2 => third
      | _ => fourth
    exact congrArg (· ++ _) written.symm
  · rintro rfl
    exact ⟨_, _, rfl, _, _, rfl, _, _, rfl, _, _, rfl, Word.ofBytes_byte value, rfl⟩

theorem reads_doubleWord : doubleWord.Reads ByteWriter.doubleWord := by
  intro bytes value rest
  unfold doubleWord ByteWriter.doubleWord
  simp only [reads_word.bind_eq_some_iff, pure_eq_some_iff]
  constructor
  · rintro ⟨low, _, rfl, high, _, rfl, rfl, rfl⟩
    rw [BitVec.setWidth_append_eq_right, BitVec.extractLsb'_append_eq_left, List.append_assoc]
  · rintro rfl
    have whole : value.extractLsb' 32 32 ++ value.setWidth 32 = value := by
      rw [BitVec.setWidth_eq_extractLsb' (by decide)]
      simp (disch := decide) only [BitVec.extractLsb'_append_extractLsb'_eq_extractLsb',
        BitVec.extractLsb'_eq_self]
    exact ⟨_, _, List.append_assoc .., _, _, rfl, whole, rfl⟩

theorem reads_bool : bool.Reads ByteWriter.bool := by
  intro bytes value rest
  unfold bool
  simp only [reads_byte.bind_eq_some_iff, ite_pure_eq_some_iff]
  constructor
  · rintro ⟨tag, _, rfl, ⟨rfl, rfl, rfl⟩ | ⟨-, ⟨rfl, rfl, rfl⟩ | ⟨-, refused⟩⟩⟩
    · rfl
    · rfl
    · cases refused
  · rintro rfl
    cases value with
    | false => exact ⟨_, _, rfl, .inl ⟨rfl, rfl, rfl⟩⟩
    | true => exact ⟨_, _, rfl, .inr ⟨by decide, .inl ⟨rfl, rfl, rfl⟩⟩⟩

theorem reads_privilege : privilege.Reads ByteWriter.privilege := by
  intro bytes value rest
  unfold privilege
  simp only [reads_word.bind_eq_some_iff, ite_pure_eq_some_iff]
  constructor
  · rintro ⟨number, _, rfl,
      ⟨rfl, rfl, rfl⟩ | ⟨-, ⟨rfl, rfl, rfl⟩ | ⟨-, ⟨rfl, rfl, rfl⟩ | ⟨-, refused⟩⟩⟩⟩
    · rfl
    · rfl
    · rfl
    · cases refused
  · rintro rfl
    cases value with
    | user => exact ⟨_, _, rfl, .inl ⟨rfl, rfl, rfl⟩⟩
    | supervisor => exact ⟨_, _, rfl, .inr ⟨by decide, .inl ⟨rfl, rfl, rfl⟩⟩⟩
    | machine =>
        exact ⟨_, _, rfl, .inr ⟨by decide, .inr ⟨by decide, .inl ⟨rfl, rfl, rfl⟩⟩⟩⟩

theorem reads_optionalWord : optionalWord.Reads ByteWriter.optionalWord := by
  have mapped : (some <$> word : ByteReader (Option Word)) =
      word >>= fun value => pure (some value) := map_eq_pure_bind ..
  intro bytes value rest
  unfold optionalWord
  rw [mapped, reads_bool.bind_eq_some_iff]
  constructor
  · rintro ⟨present, _, rfl, read⟩
    cases present with
    | false =>
        obtain ⟨rfl, rfl⟩ := pure_eq_some_iff.1 read
        rfl
    | true =>
        rw [if_pos rfl] at read
        obtain ⟨address, _, rfl, done⟩ := reads_word.bind_eq_some_iff.1 read
        obtain ⟨rfl, rfl⟩ := pure_eq_some_iff.1 done
        exact (List.append_assoc ..).symm
  · rintro rfl
    cases value with
    | none => exact ⟨_, _, rfl, rfl⟩
    | some address =>
        refine ⟨_, _, List.append_assoc .., ?_⟩
        exact reads_word.bind_eq_some_iff.2 ⟨_, _, rfl, rfl⟩

theorem reads_words (count : Nat) :
    (words count).Reads fun values => values.toList.flatMap ByteWriter.word := by
  induction count with
  | zero =>
      intro bytes value rest
      obtain rfl := value.eq_empty
      exact pure_eq_some_iff.trans (and_iff_right rfl)
  | succ count ih =>
      intro bytes value rest
      unfold words
      simp only [ih.bind_eq_some_iff, reads_word.bind_eq_some_iff, pure_eq_some_iff]
      constructor
      · rintro ⟨before, _, rfl, last, _, rfl, rfl, rfl⟩
        rw [Vector.toList_push, List.flatMap_append, List.flatMap_singleton, List.append_assoc]
      · rintro rfl
        obtain ⟨before, last, rfl⟩ := value.exists_push
        rw [Vector.toList_push, List.flatMap_append, List.flatMap_singleton, List.append_assoc]
        exact ⟨_, _, rfl, _, _, rfl, rfl, rfl⟩

end ByteReader

namespace Snapshot

/-- The fields are read in the order in which they are written. -/
theorem readsThose_reader :
    reader.ReadsThose (fun _ => True) fun snapshot => snapshot.encode := by
  simp only [encode, List.append_assoc, List.flatMap_cons, List.flatMap_nil]
  exact
      (ByteReader.reads_words 32).field Snapshot.x fun _ =>
      ByteReader.reads_word.field Snapshot.pc fun _ =>
      ByteReader.reads_privilege.field Snapshot.privilege fun _ =>
      ByteReader.reads_bool.field Snapshot.halted fun _ =>
      ByteReader.reads_optionalWord.field Snapshot.reservation fun _ =>
      ByteReader.reads_doubleWord.field Snapshot.mcycle fun _ =>
      ByteReader.reads_word.field Snapshot.mstatus fun _ =>
      ByteReader.reads_word.field Snapshot.medeleg fun _ =>
      ByteReader.reads_word.field Snapshot.mideleg fun _ =>
      ByteReader.reads_word.field Snapshot.mie fun _ =>
      ByteReader.reads_word.field Snapshot.mip fun _ =>
      ByteReader.reads_word.field Snapshot.mtvec fun _ =>
      ByteReader.reads_word.field Snapshot.mcounteren fun _ =>
      ByteReader.reads_word.field Snapshot.mscratch fun _ =>
      ByteReader.reads_word.field Snapshot.mepc fun _ =>
      ByteReader.reads_word.field Snapshot.mcause fun _ =>
      ByteReader.reads_word.field Snapshot.mtval fun _ =>
      ByteReader.reads_word.field Snapshot.stvec fun _ =>
      ByteReader.reads_word.field Snapshot.scounteren fun _ =>
      ByteReader.reads_word.field Snapshot.sscratch fun _ =>
      ByteReader.reads_word.field Snapshot.sepc fun _ =>
      ByteReader.reads_word.field Snapshot.scause fun _ =>
      ByteReader.reads_word.field Snapshot.stval fun _ =>
      ByteReader.reads_word.field Snapshot.satp fun _ =>
      ByteReader.readsThose_pure fun snapshot => by
        cases snapshot
        simp only [Snapshot.mk.injEq, true_and, and_assoc, eq_comm]

/-- A snapshot is read off exactly those bytes that begin with its own. -/
theorem decode?_eq_some_iff {bytes rest : List Byte} {snapshot : Snapshot} :
    decode? bytes = some (snapshot, rest) ↔ bytes = snapshot.encode ++ rest :=
  (readsThose_reader bytes snapshot rest).trans (and_iff_right trivial)

theorem decode?_encode_append (snapshot : Snapshot) (trailing : List Byte) :
    decode? (snapshot.encode ++ trailing) = some (snapshot, trailing) :=
  decode?_eq_some_iff.2 rfl

theorem encode_inj {first second : Snapshot} : first.encode = second.encode ↔ first = second := by
  refine ⟨fun same => ?_, congrArg encode⟩
  have read := decode?_encode_append first []
  rw [same, decode?_encode_append] at read
  exact (congrArg Prod.fst (Option.some.inj read)).symm

/-- From a part of what a snapshot is written as, no snapshot is read. -/
theorem decode?_eq_none_of_missing {snapshot : Snapshot} {part missing : List Byte}
    (parts : snapshot.encode = part ++ missing) (some : missing ≠ []) : decode? part = none := by
  rcases read : decode? part with _ | ⟨other, rest⟩
  · rfl
  · have whole := decode?_encode_append snapshot []
    rw [List.append_nil, parts, decode?_eq_some_iff.1 read, List.append_assoc,
      decode?_encode_append] at whole
    obtain ⟨-, nothing⟩ := Prod.mk.inj (Option.some.inj whole)
    exact absurd (List.append_eq_nil_iff.1 nothing).2 some

end Snapshot

/-! ## Saving and restoring -/

namespace Hart

/-- A hart takes over what was saved, whatever its own state was and whatever follows. It keeps its
configuration and its clock. -/
theorem restoreSaved_save_append (saved hart : Hart) (trailing : List Byte) :
    hart.restoreSaved (saved.save ++ trailing) =
      .ok { saved with config := hart.config, clock := hart.clock }.flush := by
  have restored : hart.restore saved.snapshot =
      .ok { saved with config := hart.config, clock := hart.clock }.flush :=
    @restore_snapshot { saved with config := hart.config, clock := hart.clock } hart rfl rfl
  unfold restoreSaved save
  rw [Snapshot.decode?_encode_append]
  dsimp only
  rw [restored]
  rfl

theorem restoreSaved_of_missing {saved : Hart} {part missing : List Byte}
    (parts : saved.save = part ++ missing) (some : missing ≠ []) (hart : Hart) :
    hart.restoreSaved part = .error .malformed := by
  unfold restoreSaved
  rw [Snapshot.decode?_eq_none_of_missing parts some]

/-- Saving is exact. (1) What is saved of a hart makes every hart one with the same snapshot,
whatever follows it. (2) Harts are saved alike exactly if their snapshots are the same. (3) If some
of the bytes are missing at the end, they are refused, which leaves the hart as it is. -/
theorem saved_snapshots_exact :
    (∀ (saved hart : Hart) trailing, ∃ restored,
      hart.restoreSaved (saved.save ++ trailing) = .ok restored ∧
        restored.value =
          { saved with config := hart.config, clock := hart.clock, tlb := .empty } ∧
        restored.value.snapshot = saved.snapshot) ∧
      (∀ first second : Hart, first.save = second.save ↔ first.snapshot = second.snapshot) ∧
      ∀ (saved hart : Hart) part missing, saved.save = part ++ missing → missing ≠ [] →
        hart.restoreSaved part = .error .malformed ∧
          Operation.ofHost hart (hart.restoreSaved part) = hart := by
  refine ⟨fun saved hart trailing => ⟨_, restoreSaved_save_append saved hart trailing, rfl, rfl⟩,
    fun _ _ => Snapshot.encode_inj, fun saved hart part missing parts some => ?_⟩
  have refused := restoreSaved_of_missing parts some hart
  exact ⟨refused, by rw [refused]; rfl⟩

/-- The first 200 bytes of what was saved of the supervisor are refused. -/
theorem callingMachine_part_refused :
    let saved := Machine.callingMachine.hart.save
    saved = saved.take 200 ++ saved.drop 200 ∧ saved.drop 200 ≠ [] ∧
      Machine.freshMachine.hart.restoreSaved (saved.take 200) = .error .malformed ∧
      Operation.ofHost Machine.freshMachine.hart
          (Machine.freshMachine.hart.restoreSaved (saved.take 200)) =
        Machine.freshMachine.hart := by
  obtain ⟨-, -, refusing⟩ := saved_snapshots_exact
  have parts := (List.take_append_drop 200 Machine.callingMachine.hart.save).symm
  have some : Machine.callingMachine.hart.save.drop 200 ≠ [] := by decide +kernel
  exact ⟨parts, some, refusing _ Machine.freshMachine.hart _ _ parts some⟩

end Hart

end Rv32
