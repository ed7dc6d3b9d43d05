import Rv32.Machine.Run

/-!
# Outcomes

`Effect.outcome` and `Attempt.outcome` are what an action does to a machine with its diagnostics
left aside: a result, or the exception raised in its place, and the machine after it. The lemmas
follow the constructions that actions are built from, so an action is opened by rewriting.

`Effect.Within` and `Attempt.Within` say that a relation links the machine before an action to the
one after it, whether or not the action fails. For a reflexive and transitive relation this passes
from the parts of an action to the whole.
-/

namespace Rv32

namespace Effect

variable {α β : Type}

/-- The result of an effect, and the machine after it. -/
def outcome (effect : Effect α) (machine : Machine) : α × Machine := (effect.run machine).value

@[simp]
theorem outcome_pure (value : α) (machine : Machine) :
    outcome (pure value) machine = (value, machine) := rfl

@[simp]
theorem outcome_bind (effect : Effect α) (next : α → Effect β) (machine : Machine) :
    outcome (effect >>= next) machine =
      (next (effect.outcome machine).1).outcome (effect.outcome machine).2 := rfl

@[simp]
theorem outcome_ite (condition : Prop) [Decidable condition] (first second : Effect α)
    (machine : Machine) :
    outcome (if condition then first else second) machine =
      if condition then first.outcome machine else second.outcome machine := by
  split <;> rfl

@[simp]
theorem outcome_getHart (machine : Machine) :
    outcome Machine.getHart machine = (machine.hart, machine) := rfl

@[simp]
theorem outcome_modifyHart (change : Hart → Hart) (machine : Machine) :
    outcome (Machine.modifyHart change) machine =
      ((), { machine with hart := change machine.hart }) := rfl

@[simp]
theorem outcome_updateHart (change : Hart → Logged Hart) (machine : Machine) :
    outcome (Machine.updateHart change) machine =
      ((), { machine with hart := (change machine.hart).value }) := rfl

@[simp]
theorem outcome_report (diagnostic : Diagnostic) (machine : Machine) :
    outcome (Machine.report diagnostic) machine = ((), machine) := rfl

@[simp]
theorem outcome_findRegion (address : Word) (machine : Machine) :
    outcome (Machine.findRegion address) machine = (machine.bus.findRegion address, machine) := rfl

@[simp]
theorem outcome_modifyBus (change : Bus → Bus) (machine : Machine) :
    outcome (Machine.modifyBus change) machine =
      ((), { machine with bus := change machine.bus }) := rfl

@[simp]
theorem outcome_readRegion (region : Region) (offset : Word) (width : Width)
    (machine : Machine) :
    outcome (Machine.readRegion region offset width) machine =
      ((machine.bus.read region offset width).1,
        { machine with bus := (machine.bus.read region offset width).2 }) := rfl

@[simp]
theorem outcome_loadPhysical (address : Word) (width : Width) (machine : Machine) :
    outcome (Machine.loadPhysical address width) machine =
      ((machine.bus.load address width).1,
        { machine with bus := (machine.bus.load address width).2 }) := rfl

end Effect

namespace Attempt

variable {α β : Type}

/-- The result of an attempt or the exception it ended with, and the machine after it. -/
def outcome (attempt : Attempt α) (machine : Machine) : Except Exception α × Machine :=
  (attempt.run.run machine).value

@[simp]
theorem outcome_run (attempt : Attempt α) (machine : Machine) :
    Effect.outcome attempt.run machine = attempt.outcome machine := rfl

@[simp]
theorem outcome_pure (value : α) (machine : Machine) :
    outcome (pure value) machine = (.ok value, machine) := rfl

@[simp]
theorem outcome_throw (raised : Exception) (machine : Machine) :
    outcome (throw raised : Attempt α) machine = (.error raised, machine) := rfl

@[simp]
theorem outcome_lift (effect : Effect α) (machine : Machine) :
    outcome (liftM effect) machine =
      (.ok (effect.outcome machine).1, (effect.outcome machine).2) := rfl

@[simp]
theorem outcome_ite (condition : Prop) [Decidable condition] (first second : Attempt α)
    (machine : Machine) :
    outcome (if condition then first else second) machine =
      if condition then first.outcome machine else second.outcome machine := by
  split <;> rfl

/-- An attempt goes on from the result of its first part, unless that part failed. -/
theorem outcome_bind (attempt : Attempt α) (next : α → Attempt β) (machine : Machine) :
    outcome (attempt >>= next) machine =
      match attempt.outcome machine with
      | (.ok value, after) => (next value).outcome after
      | (.error raised, after) => (.error raised, after) := by
  have continued : outcome (attempt >>= next) machine =
      Effect.outcome (ExceptT.bindCont next (attempt.outcome machine).1)
        (attempt.outcome machine).2 := rfl
  rw [continued]
  rcases attempt.outcome machine with ⟨result, after⟩
  cases result <;> rfl

theorem outcome_bind_ok {attempt : Attempt α} {next : α → Attempt β} {machine after : Machine}
    {value : α} (reached : attempt.outcome machine = (.ok value, after)) :
    outcome (attempt >>= next) machine = (next value).outcome after := by
  rw [outcome_bind, reached]

theorem outcome_bind_error {attempt : Attempt α} {next : α → Attempt β}
    {machine after : Machine} {raised : Exception}
    (failed : attempt.outcome machine = (.error raised, after)) :
    outcome (attempt >>= next) machine = (.error raised, after) := by
  rw [outcome_bind, failed]

/-- A composite attempt gives a result if both of its parts do. -/
theorem outcome_bind_eq_ok {attempt : Attempt α} {next : α → Attempt β}
    {machine after : Machine} {result : β} :
    outcome (attempt >>= next) machine = (.ok result, after) ↔
      ∃ value middle, attempt.outcome machine = (.ok value, middle) ∧
        (next value).outcome middle = (.ok result, after) := by
  rw [outcome_bind]
  rcases attempt.outcome machine with ⟨failure | value, middle⟩
  · simp
  · constructor
    · exact fun rest => ⟨value, middle, rfl, rest⟩
    · rintro ⟨_, _, reached, rest⟩
      cases reached
      exact rest

/-- A composite attempt fails in its first part, or in the rest after that. -/
theorem outcome_bind_eq_error {attempt : Attempt α} {next : α → Attempt β}
    {machine after : Machine} {raised : Exception} :
    outcome (attempt >>= next) machine = (.error raised, after) ↔
      attempt.outcome machine = (.error raised, after) ∨
        ∃ value middle, attempt.outcome machine = (.ok value, middle) ∧
          (next value).outcome middle = (.error raised, after) := by
  rw [outcome_bind]
  rcases attempt.outcome machine with ⟨failure | value, middle⟩
  · simp
  · constructor
    · exact fun rest => .inr ⟨value, middle, rfl, rest⟩
    · rintro (failed | ⟨_, _, reached, rest⟩)
      · cases failed
      · cases reached
        exact rest

@[simp]
theorem outcome_lift_bind (effect : Effect α) (next : α → Attempt β) (machine : Machine) :
    outcome (liftM effect >>= next) machine =
      (next (effect.outcome machine).1).outcome (effect.outcome machine).2 := rfl

@[simp]
theorem outcome_throw_bind (raised : Exception) (next : α → Attempt β) (machine : Machine) :
    outcome (throw raised >>= next) machine = (.error raised, machine) := rfl

@[simp]
theorem outcome_pure_bind (value : α) (next : α → Attempt β) (machine : Machine) :
    outcome (pure value >>= next) machine = (next value).outcome machine := rfl

end Attempt

/-! ## Relations between the machine before and after an action -/

/-- The relation links every machine to what the effect makes of it. -/
def Effect.Within {α : Type} (relation : Machine → Machine → Prop) (effect : Effect α) : Prop :=
  ∀ machine, relation machine (effect.outcome machine).2

/-- The relation links every machine to what the attempt makes of it, also if it fails. -/
def Attempt.Within {α : Type} (relation : Machine → Machine → Prop) (attempt : Attempt α) : Prop :=
  ∀ machine, relation machine (attempt.outcome machine).2

section Within

variable {α β : Type} {relation : Machine → Machine → Prop}

theorem Effect.Within.pure (refl : ∀ machine, relation machine machine) (value : α) :
    Effect.Within relation (Pure.pure value) :=
  refl

theorem Effect.Within.bind
    (trans : ∀ first second third, relation first second → relation second third →
      relation first third)
    {effect : Effect α} {next : α → Effect β} (first : effect.Within relation)
    (rest : ∀ value, (next value).Within relation) : Effect.Within relation (effect >>= next) :=
  fun machine => trans _ _ _ (first machine) (rest _ _)

theorem Attempt.Within.pure (refl : ∀ machine, relation machine machine) (value : α) :
    Attempt.Within relation (Pure.pure value) :=
  refl

theorem Attempt.Within.throw (refl : ∀ machine, relation machine machine) (raised : Exception) :
    Attempt.Within relation (MonadExcept.throw raised : Attempt α) :=
  refl

theorem Attempt.Within.lift {effect : Effect α} (first : effect.Within relation) :
    Attempt.Within relation (liftM effect) :=
  first

theorem Attempt.Within.bind
    (trans : ∀ first second third, relation first second → relation second third →
      relation first third)
    {attempt : Attempt α} {next : α → Attempt β} (first : attempt.Within relation)
    (rest : ∀ value, (next value).Within relation) :
    Attempt.Within relation (attempt >>= next) := by
  intro machine
  have reached := first machine
  rw [Attempt.outcome_bind]
  split
  · rename_i value after found
    rw [found] at reached
    exact trans _ _ _ reached (rest value after)
  · rename_i raised after found
    rw [found] at reached
    exact reached

theorem Attempt.Within.ite {condition : Prop} [Decidable condition] {yes no : Attempt α}
    (first : yes.Within relation) (second : no.Within relation) :
    Attempt.Within relation (if condition then yes else no) := by
  split
  · exact first
  · exact second

/-- An attempt that is refused under some condition. -/
theorem Attempt.Within.guard (refl : ∀ machine, relation machine machine)
    {condition : Prop} [Decidable condition] {raised : Exception} {rest : Attempt α}
    (kept : rest.Within relation) :
    Attempt.Within relation (do
      if condition then MonadExcept.throw raised
      rest) := by
  refine .ite ?_ kept
  intro machine
  exact refl machine

end Within

end Rv32
