import Rv32.Csr.Warl
import Rv32.Csr.Status
import Rv32.Trap

/-!
# Interrupt registers

Which interrupts are pending (`mip`), enabled (`mie`) and delegated to S-mode (`mideleg`), and
which of them a hart takes next. S-mode sees the delegated ones through `sip` and `sie`.
-/

namespace Rv32

/-- The interrupts that exist, which are those that can be enabled. -/
def implementedInterrupts : Word := 0xAAA

/-- The interrupts that can be delegated to S-mode. -/
def delegableInterrupts : Word := 0x222

/-- The pending bits that a program may write; the others are driven by devices only. -/
def writableInterrupts : Word := 0x022

/-- The interrupt registers. Pending bits without an interrupt are kept, but none is ever taken. -/
structure Interrupts where
  mideleg : Warl delegableInterrupts
  mip : Word
  mie : Warl implementedInterrupts
deriving DecidableEq

namespace Interrupts

/-- The registers after a reset. -/
def reset : Interrupts := ⟨.zero, 0, .zero⟩

/-- The registers with the given contents, cut to the legal bits. -/
def ofWords (mideleg mip mie : Word) : Interrupts := ⟨.ofWord _ mideleg, mip, .ofWord _ mie⟩

/-- Whether an interrupt is handled in S-mode, when it is not taken in M-mode. -/
def delegated (interrupts : Interrupts) (interrupt : Interrupt) : Bool :=
  interrupts.mideleg.bits.getLsbD interrupt.code

/-- The interrupts that are pending and enabled, whatever the level of the hart. -/
def pendingEnabled (interrupts : Interrupts) : Word := interrupts.mip &&& interrupts.mie.bits

/-- Set the pending bits of `mask`, for a device. -/
def raise (interrupts : Interrupts) (mask : Word) : Interrupts :=
  { interrupts with mip := interrupts.mip ||| mask }

/-- Clear the pending bits of `mask`, for a device. -/
def lower (interrupts : Interrupts) (mask : Word) : Interrupts :=
  { interrupts with mip := interrupts.mip &&& ~~~mask }

/-- Whether a hart at this level takes interrupts that are handled in M-mode. -/
def machineEnabled (level : Privilege) (status : Status) : Bool :=
  match level with
  | .machine => status.mie
  | _ => true

/-- Whether a hart at this level takes interrupts that are handled in S-mode. -/
def supervisorEnabled (level : Privilege) (status : Status) : Bool :=
  match level with
  | .machine => false
  | .supervisor => status.sie
  | .user => true

/-- Whether a hart at this level takes an interrupt. -/
def admissible (interrupts : Interrupts) (level : Privilege) (status : Status)
    (interrupt : Interrupt) : Bool :=
  interrupts.pendingEnabled.getLsbD interrupt.code &&
    if interrupts.delegated interrupt then supervisorEnabled level status
    else machineEnabled level status

/-- The interrupt to take now: the most urgent of the admissible ones. -/
def next (interrupts : Interrupts) (level : Privilege) (status : Status) : Option Interrupt :=
  Interrupt.priority.find? (interrupts.admissible level status)

def writeMideleg (interrupts : Interrupts) (value : Word) : Interrupts :=
  { interrupts with mideleg := .ofWord _ value }

/-- A write of the pending bits, of which a program reaches only some. -/
def writeMip (interrupts : Interrupts) (value : Word) : Interrupts :=
  { interrupts with
    mip := interrupts.mip &&& ~~~writableInterrupts ||| value &&& writableInterrupts }

def writeMie (interrupts : Interrupts) (value : Word) : Interrupts :=
  { interrupts with mie := .ofWord _ value }

/-- The pending bits as S-mode sees them. -/
def sip (interrupts : Interrupts) : Word := interrupts.mip &&& interrupts.mideleg.bits

/-- The enable bits as S-mode sees them. -/
def sie (interrupts : Interrupts) : Word := interrupts.mie.bits &&& interrupts.mideleg.bits

/-- A write of the pending bits through the window of S-mode. -/
def writeSip (interrupts : Interrupts) (value : Word) : Interrupts :=
  let selected := interrupts.mideleg.bits
  { interrupts with mip := interrupts.mip &&& ~~~selected ||| value &&& selected }

/-- A write of the enable bits through the window of S-mode. -/
def writeSie (interrupts : Interrupts) (value : Word) : Interrupts :=
  { interrupts with mie := interrupts.mie.merge value interrupts.mideleg.bits }

end Interrupts

end Rv32
