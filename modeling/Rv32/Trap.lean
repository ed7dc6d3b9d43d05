import Rv32.Privilege
import Rv32.Text.Hex

/-!
# Traps

A trap is caused by an exception, which an instruction raises, or by an interrupt, which a device
requests. Both are numbered by codes of their own, and the cause register tells them apart by its
highest bit.
-/

namespace Rv32

/-- Exceptions, with the value reported for them where there is one. -/
inductive Exception where
  | instructionAddressMisaligned (address : Word)
  | instructionAccessFault (address : Word)
  | illegalInstruction (raw : Word)
  | breakpoint
  | loadAddressMisaligned (address : Word)
  | loadAccessFault (address : Word)
  | storeAddressMisaligned (address : Word)
  | storeAccessFault (address : Word)
  | callFromUser
  | callFromSupervisor
  | callFromMachine
  | instructionPageFault (address : Word)
  | loadPageFault (address : Word)
  | storePageFault (address : Word)
deriving DecidableEq, Repr

namespace Exception

/-- The number of an exception in the cause and delegation registers. -/
def code : Exception → Nat
  | instructionAddressMisaligned _ => 0
  | instructionAccessFault _ => 1
  | illegalInstruction _ => 2
  | breakpoint => 3
  | loadAddressMisaligned _ => 4
  | loadAccessFault _ => 5
  | storeAddressMisaligned _ => 6
  | storeAccessFault _ => 7
  | callFromUser => 8
  | callFromSupervisor => 9
  | callFromMachine => 11
  | instructionPageFault _ => 12
  | loadPageFault _ => 13
  | storePageFault _ => 15

/-- The value that the handler finds in its trap value register. -/
def value : Exception → Word
  | instructionAddressMisaligned address => address
  | instructionAccessFault address => address
  | illegalInstruction raw => raw
  | breakpoint => 0
  | loadAddressMisaligned address => address
  | loadAccessFault address => address
  | storeAddressMisaligned address => address
  | storeAccessFault address => address
  | callFromUser => 0
  | callFromSupervisor => 0
  | callFromMachine => 0
  | instructionPageFault address => address
  | loadPageFault address => address
  | storePageFault address => address

/-- All exceptions in the order of their codes, those that report a value reporting `value`. -/
def all (value : Word) : List Exception :=
  [instructionAddressMisaligned value, instructionAccessFault value, illegalInstruction value,
    breakpoint, loadAddressMisaligned value, loadAccessFault value, storeAddressMisaligned value,
    storeAccessFault value, callFromUser, callFromSupervisor, callFromMachine,
    instructionPageFault value, loadPageFault value, storePageFault value]

/-- The exception that an environment call raises at a level. -/
def environmentCall : Privilege → Exception
  | .user => callFromUser
  | .supervisor => callFromSupervisor
  | .machine => callFromMachine

def text : Exception → String
  | instructionAddressMisaligned address =>
    s!"InstructionAddressMisaligned({address.toNat})"
  | instructionAccessFault address => s!"InstructionAccessFault({address.toNat})"
  | illegalInstruction raw => s!"IllegalInstruction({raw.toNat})"
  | breakpoint => "Breakpoint"
  | loadAddressMisaligned address => s!"LoadAddressMisaligned({address.toNat})"
  | loadAccessFault address => s!"LoadAccessFault({address.toNat})"
  | storeAddressMisaligned address => s!"StoreOrAmoAddressMisaligned({address.toNat})"
  | storeAccessFault address => s!"StoreOrAmoAccessFault({address.toNat})"
  | callFromUser => "EnvironmentCallFromUMode"
  | callFromSupervisor => "EnvironmentCallFromSMode"
  | callFromMachine => "EnvironmentCallFromMMode"
  | instructionPageFault address => s!"InstructionPageFault({address.toNat})"
  | loadPageFault address => s!"LoadPageFault({address.toNat})"
  | storePageFault address => s!"StoreOrAmoPageFault({address.toNat})"

end Exception

/-- The interrupts that a hart can take. -/
inductive Interrupt where
  | supervisorSoftware
  | machineSoftware
  | supervisorTimer
  | machineTimer
  | supervisorExternal
  | machineExternal
deriving DecidableEq, Repr

namespace Interrupt

/-- The number of an interrupt, which is also its bit in the interrupt registers. -/
def code : Interrupt → Nat
  | supervisorSoftware => 1
  | machineSoftware => 3
  | supervisorTimer => 5
  | machineTimer => 7
  | supervisorExternal => 9
  | machineExternal => 11

/-- The bit of an interrupt. -/
def mask (interrupt : Interrupt) : Word := 1 <<< interrupt.code

/-- All interrupts in the order of their codes. -/
def all : List Interrupt :=
  [supervisorSoftware, machineSoftware, supervisorTimer, machineTimer, supervisorExternal,
    machineExternal]

/-- All interrupts, the most urgent first. -/
def priority : List Interrupt :=
  [machineExternal, machineSoftware, machineTimer, supervisorExternal, supervisorSoftware,
    supervisorTimer]

def text : Interrupt → String
  | supervisorSoftware => "SupervisorSoftwareInterrupt"
  | machineSoftware => "MachineSoftwareInterrupt"
  | supervisorTimer => "SupervisorTimerInterrupt"
  | machineTimer => "MachineTimerInterrupt"
  | supervisorExternal => "SupervisorExternalInterrupt"
  | machineExternal => "MachineExternalInterrupt"

theorem mem_priority (interrupt : Interrupt) : interrupt ∈ priority := by
  cases interrupt <;> decide

end Interrupt

/-- What a trap is taken for. -/
inductive Cause where
  | exception (exception : Exception)
  | interrupt (interrupt : Interrupt)
deriving DecidableEq, Repr

namespace Cause

/-- The contents of the cause register. -/
def word : Cause → Word
  | exception raised => BitVec.ofNat 32 raised.code
  | interrupt taken => 0x80000000 ||| BitVec.ofNat 32 taken.code

/-- The contents of the trap value register. -/
def value : Cause → Word
  | exception raised => raised.value
  | interrupt _ => 0

def text : Cause → String
  | exception raised => s!"Exception({raised.text})"
  | interrupt taken => s!"Interrupt({taken.text})"

end Cause

/-- The kinds of access that are translated and protected on their own. Atomic operations and
conditional stores count as stores. -/
inductive AccessKind where
  | fetch
  | load
  | store
deriving DecidableEq, Repr

namespace AccessKind

/-- The exception raised when the address of such an access cannot be translated. -/
def pageFault (kind : AccessKind) (address : Word) : Exception :=
  match kind with
  | fetch => .instructionPageFault address
  | load => .loadPageFault address
  | store => .storePageFault address

end AccessKind

end Rv32
