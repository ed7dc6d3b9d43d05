import Rv32.Proofs.WakeUp

/-!
# Requests of devices in any order

Devices set and clear pending bits without knowledge of one another. What a sequence of their
requests does depends only on the bits that it sets and those that it clears, not on the order of
the requests or on how they share these bits, as long as no bit is both set and cleared
(`Machine.requests_commute`).

A request to set bits also wakes a hart that waits, and for that it looks at all pending bits, those
included that other requests clear. The order does not count all the same, because a hart that waits
misses nothing (`Hart.NothingMissed`): no enabled interrupt is pending when the first request comes,
so one that is found pending was set by a request, and that request has woken the hart.
-/

namespace Rv32

/-! ## Bits that are set and cleared -/

namespace Word

theorem or_eq_zero_iff {first second : Word} : first ||| second = 0 ↔ first = 0 ∧ second = 0 :=
  BitVec.or_eq_zero_iff

theorem and_not_of_apart {set cleared : Word} (apart : set &&& cleared = 0) :
    set &&& ~~~cleared = set :=
  calc set &&& ~~~cleared
    _ = set &&& cleared ||| set &&& ~~~cleared := by rw [apart]; exact BitVec.zero_or.symm
    _ = set &&& (cleared ||| ~~~cleared) := BitVec.and_or_distrib_left.symm
    _ = set := by rw [BitVec.or_not_self, BitVec.and_allOnes]

/-- Bits are cleared and set twice as if it were once, if the second time clears none of those that
the first time sets. -/
theorem clear_set_twice (word : Word) {set later : Word} (apart : set &&& later = 0)
    (cleared laterSet : Word) :
    (word &&& ~~~cleared ||| set) &&& ~~~later ||| laterSet =
      word &&& ~~~(cleared ||| later) ||| (set ||| laterSet) := by
  rw [BitVec.and_or_distrib_right, and_not_of_apart apart, BitVec.not_or, BitVec.and_assoc,
    BitVec.or_assoc]

end Word

/-! ## Requests -/

/-- A request of a device: to set pending bits or to clear them. -/
inductive Signal where
  | raise (mask : Word)
  | lower (mask : Word)
deriving DecidableEq, Repr

namespace Signal

def call : Signal → HostCall
  | raise mask => .serve (.act (.raiseInterrupts mask))
  | lower mask => .serve (.act (.lowerInterrupts mask))

/-- The bits that a request sets. -/
def sets : Signal → Word
  | raise mask => mask
  | lower _ => 0

/-- The bits that a request clears. -/
def clears : Signal → Word
  | raise _ => 0
  | lower mask => mask

def allSet (signals : List Signal) : Word :=
  signals.foldr (fun signal bits => signal.sets ||| bits) 0

def allCleared (signals : List Signal) : Word :=
  signals.foldr (fun signal bits => signal.clears ||| bits) 0

/-- No bit is both set and cleared. -/
def Consistent (signals : List Signal) : Prop := allSet signals &&& allCleared signals = 0

instance (signals : List Signal) : Decidable (Consistent signals) :=
  inferInstanceAs (Decidable (_ = _))

@[simp]
theorem allSet_nil : allSet [] = 0 := rfl

@[simp]
theorem allSet_cons (signal : Signal) (rest : List Signal) :
    allSet (signal :: rest) = signal.sets ||| allSet rest := rfl

@[simp]
theorem allCleared_nil : allCleared [] = 0 := rfl

@[simp]
theorem allCleared_cons (signal : Signal) (rest : List Signal) :
    allCleared (signal :: rest) = signal.clears ||| allCleared rest := rfl

/-- What the first of consistent requests sets, no later one clears. -/
theorem Consistent.of_cons {signal : Signal} {rest : List Signal}
    (consistent : Consistent (signal :: rest)) :
    signal.sets &&& allCleared rest = 0 ∧ Consistent rest := by
  unfold Consistent at consistent
  rw [allSet_cons, allCleared_cons, BitVec.and_or_distrib_right, BitVec.and_or_distrib_left,
    BitVec.and_or_distrib_left, Word.or_eq_zero_iff, Word.or_eq_zero_iff,
    Word.or_eq_zero_iff] at consistent
  exact ⟨consistent.1.2, consistent.2.2⟩

/-- Two sequences of requests set the same bits and clear the same bits, and no bit is both. -/
structure Interchangeable (first second : List Signal) : Prop where
  consistent : Consistent first
  set : allSet first = allSet second
  cleared : allCleared first = allCleared second

theorem Interchangeable.symm {first second : List Signal}
    (same : Interchangeable first second) : Interchangeable second first := by
  refine ⟨?_, same.set.symm, same.cleared.symm⟩
  unfold Consistent
  rw [← same.set, ← same.cleared]
  exact same.consistent

theorem interchangeable_raises (first second : Word) :
    Interchangeable [.raise first, .raise second] [.raise second, .raise first] where
  consistent := by simp [Consistent, sets, clears]
  set := by simp [sets, BitVec.or_comm]
  cleared := rfl

theorem interchangeable_raise_or (first second : Word) :
    Interchangeable [.raise first, .raise second] [.raise (first ||| second)] where
  consistent := by simp [Consistent, sets, clears]
  set := by simp [sets]
  cleared := by simp [clears]

theorem interchangeable_lowers (first second : Word) :
    Interchangeable [.lower first, .lower second] [.lower second, .lower first] where
  consistent := by simp [Consistent, sets, clears]
  set := rfl
  cleared := by simp [clears, BitVec.or_comm]

theorem interchangeable_lower_or (first second : Word) :
    Interchangeable [.lower first, .lower second] [.lower (first ||| second)] where
  consistent := by simp [Consistent, sets, clears]
  set := by simp [sets]
  cleared := by simp [clears]

theorem interchangeable_raise_lower {set cleared : Word} (apart : set &&& cleared = 0) :
    Interchangeable [.raise set, .lower cleared] [.lower cleared, .raise set] where
  consistent := by simpa [Consistent, sets, clears] using apart
  set := by simp [sets]
  cleared := by simp [clears]

end Signal

namespace Hart

/-- The hart with pending bits set and cleared. One that waits goes on if an enabled interrupt is
among those that are set. -/
def signalled (hart : Hart) (set cleared : Word) : Hart :=
  { hart with
    interrupts := { hart.interrupts with mip := hart.interrupts.mip &&& ~~~cleared ||| set }
    halted := hart.halted && set &&& hart.interrupts.mie.bits == 0 }

variable {hart : Hart}

theorem signalled_nothing (hart : Hart) : hart.signalled 0 0 = hart := by
  have kept : hart.interrupts.mip &&& ~~~0 ||| 0 = hart.interrupts.mip :=
    BitVec.or_zero.trans BitVec.and_allOnes
  have none : 0 &&& hart.interrupts.mie.bits = 0 := BitVec.zero_and
  unfold signalled
  rw [kept, none, beq_self_eq_true, Bool.and_true]

theorem signalled_signalled {set later : Word} (apart : set &&& later = 0)
    (cleared laterSet : Word) :
    (hart.signalled set cleared).signalled laterSet later =
      hart.signalled (set ||| laterSet) (cleared ||| later) := by
  have wakes : (set &&& hart.interrupts.mie.bits == 0 &&
      laterSet &&& hart.interrupts.mie.bits == 0) =
        ((set ||| laterSet) &&& hart.interrupts.mie.bits == 0) := by
    rw [Bool.eq_iff_iff, Bool.and_eq_true, beq_iff_eq, beq_iff_eq, beq_iff_eq,
      BitVec.and_or_distrib_right, Word.or_eq_zero_iff]
  unfold signalled
  dsimp only
  rw [Word.clear_set_twice _ apart, Bool.and_assoc, wakes]

theorem lowerInterrupts_eq (hart : Hart) (mask : Word) :
    hart.lowerInterrupts mask = hart.signalled 0 mask := by
  have cleared : hart.interrupts.mip &&& ~~~mask ||| 0 = hart.interrupts.mip &&& ~~~mask :=
    BitVec.or_zero
  have none : 0 &&& hart.interrupts.mie.bits = 0 := BitVec.zero_and
  unfold signalled
  rw [cleared, none, beq_self_eq_true, Bool.and_true]
  rfl

/-- If nothing was missed before a request, only what it sets wakes the hart. -/
theorem raiseInterrupts_eq (missed : hart.NothingMissed) (mask : Word) :
    hart.raiseInterrupts mask = hart.signalled mask 0 := by
  have raised : hart.interrupts.mip &&& ~~~0 = hart.interrupts.mip := BitVec.and_allOnes
  have wakes : (hart.halted && (hart.interrupts.raise mask).pendingEnabled == 0) =
      (hart.halted && mask &&& hart.interrupts.mie.bits == 0) := by
    cases halted : hart.halted with
    | false => rfl
    | true =>
        have before : hart.interrupts.mip &&& hart.interrupts.mie.bits = 0 := missed halted
        have added : 0 ||| mask &&& hart.interrupts.mie.bits = mask &&& hart.interrupts.mie.bits :=
          BitVec.zero_or
        unfold Interrupts.pendingEnabled Interrupts.raise
        dsimp only
        rw [BitVec.and_or_distrib_right, before, added]
  unfold raiseInterrupts signalled
  dsimp only
  rw [wakes, raised]
  rfl

end Hart

namespace Machine

/-- The machine after requests of devices. -/
def signalled (machine : Machine) (signals : List Signal) : Machine :=
  (session (signals.map Signal.call) machine).2

variable {machine : Machine}

theorem signal_outcome (missed : machine.hart.NothingMissed) (signal : Signal) :
    signal.call.apply machine =
      { machine with hart := machine.hart.signalled signal.sets signal.clears } := by
  cases signal with
  | raise mask =>
      exact congrArg (fun hart => { machine with hart := hart })
        (Hart.raiseInterrupts_eq missed mask)
  | lower mask =>
      exact congrArg (fun hart => { machine with hart := hart })
        (Hart.lowerInterrupts_eq machine.hart mask)

/-- Requests that are consistent come to one that sets and clears all their bits. -/
theorem signalled_eq {signals : List Signal} (consistent : Signal.Consistent signals)
    (missed : machine.hart.NothingMissed) :
    machine.signalled signals =
      { machine with
        hart := machine.hart.signalled (Signal.allSet signals) (Signal.allCleared signals) } := by
  induction signals generalizing machine with
  | nil =>
      have same : machine.hart.signalled 0 0 = machine.hart := Hart.signalled_nothing _
      exact congrArg (fun hart => { machine with hart := hart }) same.symm
  | cons signal rest ih =>
      obtain ⟨apart, restConsistent⟩ := consistent.of_cons
      have next : (signal.call.apply machine).hart.NothingMissed :=
        signal.call.nothingMissed_apply (by cases signal <;> rfl) missed
      have first : machine.signalled (signal :: rest) =
          (signal.call.apply machine).signalled rest := rfl
      rw [first, ih restConsistent next, signal_outcome missed]
      dsimp only
      rw [Hart.signalled_signalled apart]
      rfl

theorem signalled_congr (missed : machine.hart.NothingMissed) {first second : List Signal}
    (same : Signal.Interchangeable first second) :
    machine.signalled first = machine.signalled second := by
  rw [signalled_eq same.consistent missed, signalled_eq same.symm.consistent missed, same.set,
    same.cleared]

/-- Requests of devices commute. In every session that starts with a hart in its initial state, and
in which the host puts nothing into control and status registers: requests to set bits can be made
in either order, or as one, and so can requests to clear bits; and a request to set bits and one to
clear others can be made in either order. Each time the whole machine is the same after them. The
same holds of any requests that set the same bits and clear the same bits, if no bit is both, and
then whatever is done later gives the same answers and ends with the same machine. -/
theorem requests_commute (config : HartConfig) (bus : Bus) {calls : List HostCall}
    (plain : ∀ call ∈ calls, call.setsControl = false) :
    let machine := (session calls (initial config bus)).2
    (∀ first second,
      machine.signalled [.raise first, .raise second] =
          machine.signalled [.raise second, .raise first] ∧
        machine.signalled [.raise first, .raise second] =
          machine.signalled [.raise (first ||| second)]) ∧
    (∀ first second,
      machine.signalled [.lower first, .lower second] =
          machine.signalled [.lower second, .lower first] ∧
        machine.signalled [.lower first, .lower second] =
          machine.signalled [.lower (first ||| second)]) ∧
    (∀ set cleared, set &&& cleared = 0 →
      machine.signalled [.raise set, .lower cleared] =
        machine.signalled [.lower cleared, .raise set]) ∧
    ∀ first second, Signal.Interchangeable first second →
      ∀ later, session later (machine.signalled first) =
        session later (machine.signalled second) := by
  intro machine
  have missed : machine.hart.NothingMissed := by
    refine session_keeps (fun machine => machine.hart.NothingMissed)
      (fun call _ plain => call.nothingMissed_apply plain) plain ?_
    exact .of_running rfl
  refine ⟨fun first second => ⟨?_, ?_⟩, fun first second => ⟨?_, ?_⟩, fun set cleared apart => ?_,
    fun first second same later => ?_⟩
  · exact signalled_congr missed (Signal.interchangeable_raises first second)
  · exact signalled_congr missed (Signal.interchangeable_raise_or first second)
  · exact signalled_congr missed (Signal.interchangeable_lowers first second)
  · exact signalled_congr missed (Signal.interchangeable_lower_or first second)
  · exact signalled_congr missed (Signal.interchangeable_raise_lower apart)
  · exact congrArg (session later) (signalled_congr missed same)

/-- The program that enables the software interrupt of M-mode and waits, with that interrupt
requested before the clearing of another one and after it. -/
theorem sleeper_requests_commute :
    sleeper.hart.halted = true ∧ sleeper.hart.interrupts.mip = 0x2 ∧
      sleeper.signalled [.raise 0x8, .lower 0x2] = sleeper.signalled [.lower 0x2, .raise 0x8] ∧
      (sleeper.signalled [.lower 0x2, .raise 0x8]).hart.halted = false ∧
      (sleeper.signalled [.lower 0x2, .raise 0x8]).hart.interrupts.mip = 0x8 := by
  have plain : ∀ call ∈ [HostCall.serve (.step 3), .serve (.act (.raiseInterrupts 0x2))],
      call.setsControl = false := by decide
  obtain ⟨-, -, apart, -⟩ := requests_commute ⟨0, 0⟩
    (.allMemory [0x73, 0x50, 0x44, 0x30, 0x73, 0, 0x50, 0x10]) plain
  exact ⟨by decide +kernel, by decide +kernel, apart 0x8 0x2 (by decide), by decide +kernel,
    by decide +kernel⟩

/-- Contents that the host puts into the registers of a hart that waits can make the order count. -/
example :
    let hart := { Hart.initial ⟨0, 0⟩ with halted := true, interrupts := .ofWords 0 0x8 0x8 }
    ((hart.raiseInterrupts 0).lowerInterrupts 0x8).halted = false ∧
      ((hart.lowerInterrupts 0x8).raiseInterrupts 0).halted = true := by
  decide

end Machine

end Rv32
