import Rv32.Word

/-!
# Peripherals

A device of memory-mapped input and output may answer a read as it likes, and every access may
change what it answers later. A machine sees nothing of it but these answers, so a `Peripheral` is
the answers that it is going to give, whichever accesses come before them.

Devices are rather described by a state that accesses change. Each of them is a peripheral too
(`Peripheral.ofState`).
-/

namespace Rv32

/-- An access as a device sees it, with the value that is written. -/
inductive PeripheralAccess where
  | read (offset : Word) (width : Width)
  | write (offset value : Word) (width : Width)
deriving DecidableEq, Repr

/-- What a device answers to a read after more accesses, which are given in order. -/
structure Peripheral where
  answer : (earlier : List PeripheralAccess) → (offset : Word) → (width : Width) → Word

namespace Peripheral

/-- The device after an access. -/
def after (peripheral : Peripheral) (access : PeripheralAccess) : Peripheral :=
  ⟨fun earlier => peripheral.answer (access :: earlier)⟩

/-- The answer to a read, and the device after it. -/
def read (peripheral : Peripheral) (offset : Word) (width : Width) : Word × Peripheral :=
  (peripheral.answer [] offset width, peripheral.after (.read offset width))

/-- The device after a write. -/
def write (peripheral : Peripheral) (offset value : Word) (width : Width) : Peripheral :=
  peripheral.after (.write offset value width)

section OfState

variable {State : Type} (answer : State → Word → Width → Word)
  (step : State → PeripheralAccess → State) (state : State)

/-- The device with a state from which it answers, and which every access takes to the next. -/
def ofState : Peripheral := ⟨fun earlier => answer (earlier.foldl step state)⟩

@[simp]
theorem read_ofState (offset : Word) (width : Width) :
    (ofState answer step state).read offset width =
      (answer state offset width, ofState answer step (step state (.read offset width))) := rfl

@[simp]
theorem write_ofState (offset value : Word) (width : Width) :
    (ofState answer step state).write offset value width =
      ofState answer step (step state (.write offset value width)) := rfl

end OfState

end Peripheral

end Rv32
