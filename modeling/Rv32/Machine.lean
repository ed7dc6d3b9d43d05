import Rv32.Bus
import Rv32.Hart

/-!
# The machine

A machine is a hart and the bus it works on. What an instruction does is an `Attempt`: it may change
the machine, report diagnostics, and end with an exception. An `Effect` does the same but cannot
fail. Changes made before an exception stay.
-/

namespace Rv32

/-- A hart and its bus. -/
structure Machine where
  hart : Hart
  bus : Bus

/-- A change of the machine with a result. -/
abbrev Effect := StateT Machine Logged

/-- A change of the machine that ends with a result or with an exception. -/
abbrev Attempt := ExceptT Exception Effect

namespace Machine

/-- The hart as it is now. -/
def getHart : Effect Hart := fun machine => pure (machine.hart, machine)

/-- Change the hart. -/
def modifyHart (change : Hart → Hart) : Effect Unit := fun machine =>
  pure ((), { machine with hart := change machine.hart })

/-- Change the hart in a way that is reported. -/
def updateHart (change : Hart → Logged Hart) : Effect Unit := fun machine => do
  let hart ← change machine.hart
  pure ((), { machine with hart := hart })

/-- Report a diagnostic. -/
def report (diagnostic : Diagnostic) : Effect Unit := fun machine => do
  Logged.report diagnostic
  pure ((), machine)

/-- The region of a physical address. -/
def findRegion (address : Word) : Effect (Option Region) := fun machine =>
  pure (machine.bus.findRegion address, machine)

/-- Read from a device. -/
def readRegion (region : Region) (offset : Word) (width : Width) : Effect Word := fun machine =>
  let (value, bus) := machine.bus.read region offset width
  pure (value, { machine with bus := bus })

/-- Change the bus. -/
def modifyBus (change : Bus → Bus) : Effect Unit := fun machine =>
  pure ((), { machine with bus := change machine.bus })

/-- Read from a physical address. -/
def loadPhysical (address : Word) (width : Width) : Effect Word := fun machine =>
  let (value, bus) := machine.bus.load address width
  pure (value, { machine with bus := bus })

@[simp]
theorem run_getHart (machine : Machine) : getHart.run machine = pure (machine.hart, machine) := rfl

@[simp]
theorem run_modifyHart (machine : Machine) (change : Hart → Hart) :
    (modifyHart change).run machine = pure ((), { machine with hart := change machine.hart }) := rfl

@[simp]
theorem run_updateHart (machine : Machine) (change : Hart → Logged Hart) :
    (updateHart change).run machine =
      (fun hart => ((), { machine with hart := hart })) <$> change machine.hart := rfl

@[simp]
theorem run_report (machine : Machine) (diagnostic : Diagnostic) :
    (report diagnostic).run machine =
      (fun _ => ((), machine)) <$> Logged.report diagnostic := rfl

@[simp]
theorem run_findRegion (machine : Machine) (address : Word) :
    (findRegion address).run machine = pure (machine.bus.findRegion address, machine) := rfl

@[simp]
theorem run_modifyBus (machine : Machine) (change : Bus → Bus) :
    (modifyBus change).run machine = pure ((), { machine with bus := change machine.bus }) := rfl

@[simp]
theorem run_readRegion (machine : Machine) (region : Region) (offset : Word) (width : Width) :
    (readRegion region offset width).run machine =
      pure ((machine.bus.read region offset width).1,
        { machine with bus := (machine.bus.read region offset width).2 }) := rfl

@[simp]
theorem run_loadPhysical (machine : Machine) (address : Word) (width : Width) :
    (loadPhysical address width).run machine =
      pure ((machine.bus.load address width).1,
        { machine with bus := (machine.bus.load address width).2 }) := rfl

end Machine

end Rv32
