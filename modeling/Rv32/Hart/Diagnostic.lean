import Rv32.Trap

/-!
# Diagnostics

What a machine reports about its own work. Diagnostics have no influence on what the machine does:
an operation that may report some gives its result as a `Logged` value, beside which they stand in
the order of their occurrence.
-/

namespace Rv32

/-- How urgent a report is. -/
inductive Severity where
  | error
  | warn
  | info
  | debug
  | trace
deriving DecidableEq, Repr

namespace Severity

/-- The number of times that verbosity has to be asked for before reports of this kind appear. -/
def verbosity : Severity → Nat
  | error => 0
  | warn => 1
  | info => 2
  | debug => 3
  | trace => 4

def text : Severity → String
  | error => "ERROR"
  | warn => "WARN"
  | info => "INFO"
  | debug => "DEBUG"
  | trace => "TRACE"

end Severity

/-- A report. -/
inductive Diagnostic where
  | tlbFlushed
  | unmappedLoad (address : Word)
  | unmappedStore (address : Word)
  | sleepsForever (pc : Word)
  | trapped (cause : Cause) (pc : Word) (level : Privilege) (delegated : Bool)
deriving DecidableEq, Repr

namespace Diagnostic

def severity : Diagnostic → Severity
  | tlbFlushed => .debug
  | unmappedLoad _ => .debug
  | unmappedStore _ => .debug
  | sleepsForever _ => .warn
  | trapped .. => .trace

def message : Diagnostic → String
  | tlbFlushed => "Flushing TLB"
  | unmappedLoad address => s!"Load from unmapped physical address {Hex.full address}"
  | unmappedStore address => s!"Store to unmapped physical address {Hex.full address}"
  | sleepsForever pc =>
    s!"WFI at {Hex.full pc} with all interrupts disabled, the hart will not wake up"
  | trapped cause pc level delegated =>
    s!"Trap {cause.text} (tval {Hex.full cause.value}) at pc {Hex.full pc} " ++
      s!"from privilege level {level.text}, delegated: {delegated}"

/-- The report as a line of text. -/
def line (diagnostic : Diagnostic) : String :=
  diagnostic.severity.text ++ " " ++ diagnostic.message

end Diagnostic

/-- A value, and the diagnostics reported on the way to it. -/
structure Logged (α : Type) where
  value : α
  log : Array Diagnostic
deriving DecidableEq

namespace Logged

/-- A report without a result. -/
def report (diagnostic : Diagnostic) : Logged Unit := ⟨(), #[diagnostic]⟩

/-- The value with earlier diagnostics in front of its own. -/
def after {α : Type} (log : Array Diagnostic) (rest : Logged α) : Logged α :=
  ⟨rest.value, log ++ rest.log⟩

-- The first result is taken apart before the rest runs, so that the rest owns the value alone and
-- may change it in place.
instance : Monad Logged where
  pure value := ⟨value, #[]⟩
  bind first next :=
    match first with
    | ⟨value, log⟩ => after log (next value)

@[simp]
theorem value_pure {α : Type} (value : α) : (pure value : Logged α).value = value := rfl

@[simp]
theorem value_bind {α β : Type} (first : Logged α) (next : α → Logged β) :
    (first >>= next).value = (next first.value).value := rfl

@[simp]
theorem value_map {α β : Type} (change : α → β) (first : Logged α) :
    (change <$> first).value = change first.value := rfl

@[ext]
theorem eq_of_parts {α : Type} {first second : Logged α} (value : first.value = second.value)
    (log : first.log = second.log) : first = second := by
  cases first
  cases second
  cases value
  cases log
  rfl

instance : LawfulMonad Logged := LawfulMonad.mk'
  Logged
  (fun first => eq_of_parts rfl (by simp [Functor.map, after]))
  (fun value next => eq_of_parts rfl (by simp [bind, pure, after]))
  (fun first second third => eq_of_parts rfl (by simp [bind, after, Array.append_assoc]))

end Logged

end Rv32
