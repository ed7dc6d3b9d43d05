import Rv32.Csr.Warl
import Rv32.Trap

/-!
# Trap setup and trap records

`TrapSetup` says where traps go and which counters a program may read. A `TrapRecord` is what a
trap leaves behind for its handler; there is one for each level that handles traps.
-/

namespace Rv32

/-- The bits of a trap vector: its reserved modes cannot be stored. -/
def vectorBits : Word := 0xFFFFFFFD

/-- The address of a trap handler. -/
abbrev TrapVector := Warl vectorBits

/-- Whether interrupts have entry points of their own. -/
inductive VectorMode where
  | direct
  | vectored
deriving DecidableEq, Repr

namespace VectorMode

def text : VectorMode → String
  | direct => "Direct"
  | vectored => "Vectored"

end VectorMode

namespace TrapVector

/-- The trap vector with exactly these contents, unless they spell a reserved mode. -/
def ofWord? (word : Word) : Option TrapVector :=
  if word.getLsbD 1 then none else some (.ofWord _ word)

/-- The address at which exceptions enter. -/
def base (vector : TrapVector) : Word := vector.bits &&& ~~~3

def mode (vector : TrapVector) : VectorMode :=
  if vector.bits.getLsbD 0 then .vectored else .direct

/-- The address at which a trap enters. -/
def handler (vector : TrapVector) (cause : Cause) : Word :=
  match vector.mode, cause with
  | .vectored, .interrupt taken => vector.base + BitVec.ofNat 32 (4 * taken.code)
  | _, _ => vector.base

end TrapVector

/-- The bits of `medeleg`: a call from M-mode is never delegated. -/
def delegableExceptions : Word := 0xFFFFF7FF

/-- The bits of a counter-enable register: the cycle counter and the count of instructions. -/
def enableableCounters : Word := 0b101

/-- Which counters the level below may read. -/
abbrev CounterEnable := Warl enableableCounters

/-- The counters whose access is controlled. -/
inductive Counter where
  | cycles
  | instructions
deriving DecidableEq, Repr

namespace Counter

/-- The bit of a counter in the counter-enable registers. -/
def index : Counter → Nat
  | cycles => 0
  | instructions => 2

end Counter

namespace CounterEnable

def enables (register : CounterEnable) (counter : Counter) : Bool :=
  register.bits.getLsbD counter.index

end CounterEnable

/-- The registers that say how traps are handled. -/
structure TrapSetup where
  mtvec : TrapVector
  medeleg : Warl delegableExceptions
  mcounteren : CounterEnable
  stvec : TrapVector
  scounteren : CounterEnable
deriving DecidableEq

namespace TrapSetup

/-- The registers after a reset. -/
def reset : TrapSetup := ⟨.zero, .zero, .zero, .zero, .zero⟩

/-- Whether an exception is handled in S-mode, when it is not raised in M-mode. -/
def delegated (setup : TrapSetup) (exception : Exception) : Bool :=
  setup.medeleg.bits.getLsbD exception.code

/-- The trap vector of a level. No trap enters U-mode, so all below M-mode use that of S-mode. -/
def vector (setup : TrapSetup) (level : Privilege) : TrapVector :=
  match level with
  | .machine => setup.mtvec
  | _ => setup.stvec

/-- Whether code at a level may read a counter: each level above it must allow that. -/
def counterEnabled (setup : TrapSetup) (level : Privilege) (counter : Counter) : Bool :=
  match level with
  | .machine => true
  | .supervisor => setup.mcounteren.enables counter
  | .user => setup.mcounteren.enables counter && setup.scounteren.enables counter

end TrapSetup

/-- The bits of an address of an instruction, which is always even. -/
def instructionAddressBits : Word := 0xFFFFFFFE

/-- The registers that a trap to one level writes, and the scratch register of its handler. -/
structure TrapRecord where
  scratch : Word
  epc : Warl instructionAddressBits
  cause : Word
  tval : Word
deriving DecidableEq

namespace TrapRecord

/-- The registers after a reset. -/
def reset : TrapRecord := ⟨0, .zero, 0, 0⟩

/-- The registers with the given contents, cut to the legal bits. -/
def ofWords (scratch epc cause tval : Word) : TrapRecord := ⟨scratch, .ofWord _ epc, cause, tval⟩

/-- The record of a trap taken at `pc`. -/
def enter (record : TrapRecord) (pc : Word) (cause : Cause) : TrapRecord :=
  { record with epc := .ofWord _ pc, cause := cause.word, tval := cause.value }

end TrapRecord

end Rv32
