import Rv32.Registers
import Rv32.Csr.Interrupts
import Rv32.Csr.TrapSetup
import Rv32.Csr.Satp
import Rv32.Translation.Tlb
import Rv32.Hart.Diagnostic

/-!
# The hart

A `Hart` is the state of one hardware thread: its registers, its control and status registers, its
level, and the translation caches. Memory is not part of it.

Here are the changes that concern the hart alone and no instruction: resets, requests of interrupts
by devices, and the loss of cached translations when the level changes.
-/

namespace Rv32

/-- What is fixed when a hart is built. -/
structure HartConfig where
  resetVector : Word
  hartId : Word
deriving DecidableEq, Repr

namespace HartConfig

/-- The configuration of a hart about which nothing else is said. -/
def standard : HartConfig := ⟨0x1000, 0⟩

end HartConfig

/-- The state of a hart. The cycle counter also counts instructions; the clock is that of the host,
if one is attached. -/
structure Hart where
  config : HartConfig
  registers : Registers
  status : Status
  interrupts : Interrupts
  setup : TrapSetup
  machineTrap : TrapRecord
  supervisorTrap : TrapRecord
  satp : Satp
  mcycle : DoubleWord
  privilege : Privilege
  reservation : Option Word
  halted : Bool
  tlb : Tlb
  clock : Option DoubleWord
deriving DecidableEq

namespace Hart

/-- A hart in its initial state, with nothing in its caches. -/
def initial (config : HartConfig) : Hart where
  config := config
  registers := .reset config.resetVector
  status := .reset
  interrupts := .reset
  setup := .reset
  machineTrap := .reset
  supervisorTrap := .reset
  satp := .zero
  mcycle := 0
  privilege := .machine
  reservation := none
  halted := false
  tlb := .empty
  clock := none

def pc (hart : Hart) : Word := hart.registers.pc

/-- The contents of a register. -/
def x (hart : Hart) (register : Reg) : Word := hart.registers.get register

def withPc (hart : Hart) (pc : Word) : Hart :=
  { hart with registers := { hart.registers with pc := pc } }

def setX (hart : Hart) (register : Reg) (value : Word) : Hart :=
  { hart with registers := hart.registers.set register value }

/-- Go on behind an instruction of `length` bytes. -/
def advance (hart : Hart) (length : Word) : Hart := hart.withPc (hart.pc + length)

/-- Forget all cached translations. -/
def flush (hart : Hart) : Logged Hart := do
  Logged.report .tlbFlushed
  pure { hart with tlb := hart.tlb.flush }

/-- Run at another level from now on, which makes cached translations invalid. -/
def setPrivilege (hart : Hart) (level : Privilege) : Logged Hart :=
  if level = hart.privilege then pure hart else { hart with privilege := level }.flush

/-- Start again at the reset vector. State that the architecture leaves open stays as it is. -/
def reset (hart : Hart) : Logged Hart :=
  flush
    { hart with
      registers := { hart.registers with pc := hart.config.resetVector }
      privilege := .machine
      status := { hart.status with mie := false, mprv := false }
      machineTrap := { hart.machineTrap with cause := 0 }
      halted := false }

/-- Start again with all registers in their initial state. -/
def resetHard (hart : Hart) : Logged Hart :=
  reset
    { hart with
      registers := .reset hart.config.resetVector
      status := .reset
      interrupts := .reset
      setup := .reset
      machineTrap := .reset
      supervisorTrap := .reset
      satp := .zero
      mcycle := 0
      reservation := none }

/-- Set pending bits for a device. A hart that waits goes on if an enabled interrupt is pending
then. -/
def raiseInterrupts (hart : Hart) (mask : Word) : Hart :=
  let interrupts := hart.interrupts.raise mask
  { hart with
    interrupts := interrupts
    halted := hart.halted && interrupts.pendingEnabled == 0 }

/-- Clear pending bits for a device. -/
def lowerInterrupts (hart : Hart) (mask : Word) : Hart :=
  { hart with interrupts := hart.interrupts.lower mask }

/-- Attach a clock of the host, which shows `time`. -/
def setClock (hart : Hart) (time : DoubleWord) : Hart := { hart with clock := some time }

/-- The ticks per second that a hart without a clock claims to count. -/
def nominalFrequency : Word := 50000000

/-- The time that programs see: that of the clock, or else the number of cycles. -/
def time (hart : Hart) : DoubleWord := hart.clock.getD hart.mcycle

@[simp]
theorem pc_setX (hart : Hart) (register : Reg) (value : Word) :
    (hart.setX register value).pc = hart.pc := Registers.pc_set ..

@[simp]
theorem x_zero (hart : Hart) : hart.x Reg.zero = 0 := Registers.get_zero _

theorem x_setX (hart : Hart) (register other : Reg) (value : Word) :
    (hart.setX register value).x other =
      if other = register ∧ register ≠ Reg.zero then value else hart.x other :=
  Registers.get_set ..

end Hart

end Rv32
