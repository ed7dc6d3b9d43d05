import Rv32.Hart

/-!
# Snapshots

A `Snapshot` holds the architectural state of a hart as plain words, each as a read of the register
would give it. The translation caches and the configuration are not part of it.

`Hart.restore` accepts the snapshots whose status and trap vectors are legal, and otherwise gives a
reason; fields with bits that cannot be set are cut to legal values.
-/

namespace Rv32

/-- The architectural state of a hart. -/
structure Snapshot where
  x : Vector Word 32
  pc : Word
  privilege : Privilege
  halted : Bool
  reservation : Option Word
  mcycle : DoubleWord
  mstatus : Word
  medeleg : Word
  mideleg : Word
  mie : Word
  mip : Word
  mtvec : Word
  mcounteren : Word
  mscratch : Word
  mepc : Word
  mcause : Word
  mtval : Word
  stvec : Word
  scounteren : Word
  sscratch : Word
  sepc : Word
  scause : Word
  stval : Word
  satp : Word
deriving DecidableEq

/-- The trap vector of M-mode or of S-mode. -/
inductive VectorRegister where
  | mtvec
  | stvec
deriving DecidableEq, Repr

namespace VectorRegister

def text : VectorRegister → String
  | mtvec => "mtvec"
  | stvec => "stvec"

end VectorRegister

/-- Why a snapshot is refused. -/
inductive SnapshotError where
  | illegalStatus (value : Word)
  | reservedVectorMode (register : VectorRegister) (value : Word)
deriving DecidableEq, Repr

namespace SnapshotError

def message : SnapshotError → String
  | illegalStatus value => s!"illegal mstatus value {Hex.full value}"
  | reservedVectorMode register value =>
    s!"{register.text} value {Hex.full value} uses a reserved vector mode"

end SnapshotError

namespace Hart

/-- The state of the hart. -/
def snapshot (hart : Hart) : Snapshot where
  x := hart.registers.x
  pc := hart.registers.pc
  privilege := hart.privilege
  halted := hart.halted
  reservation := hart.reservation
  mcycle := hart.mcycle
  mstatus := hart.status.toWord
  medeleg := hart.setup.medeleg.bits
  mideleg := hart.interrupts.mideleg.bits
  mie := hart.interrupts.mie.bits
  mip := hart.interrupts.mip
  mtvec := hart.setup.mtvec.bits
  mcounteren := hart.setup.mcounteren.bits
  mscratch := hart.machineTrap.scratch
  mepc := hart.machineTrap.epc.bits
  mcause := hart.machineTrap.cause
  mtval := hart.machineTrap.tval
  stvec := hart.setup.stvec.bits
  scounteren := hart.setup.scounteren.bits
  sscratch := hart.supervisorTrap.scratch
  sepc := hart.supervisorTrap.epc.bits
  scause := hart.supervisorTrap.cause
  stval := hart.supervisorTrap.tval
  satp := hart.satp.bits

/-- The hart in the state of a snapshot, with empty caches. -/
def restore (hart : Hart) (snapshot : Snapshot) : Except SnapshotError (Logged Hart) :=
  match Status.ofWord? snapshot.mstatus, TrapVector.ofWord? snapshot.mtvec,
    TrapVector.ofWord? snapshot.stvec with
  | none, _, _ => .error (.illegalStatus snapshot.mstatus)
  | _, none, _ => .error (.reservedVectorMode .mtvec snapshot.mtvec)
  | _, _, none => .error (.reservedVectorMode .stvec snapshot.stvec)
  | some status, some mtvec, some stvec =>
    .ok <| flush
      { hart with
        registers := .ofVector snapshot.x snapshot.pc
        status := status
        interrupts := .ofWords snapshot.mideleg snapshot.mip snapshot.mie
        setup :=
          { mtvec := mtvec
            medeleg := .ofWord _ snapshot.medeleg
            mcounteren := .ofWord _ snapshot.mcounteren
            stvec := stvec
            scounteren := .ofWord _ snapshot.scounteren }
        machineTrap :=
          .ofWords snapshot.mscratch snapshot.mepc snapshot.mcause snapshot.mtval
        supervisorTrap :=
          .ofWords snapshot.sscratch snapshot.sepc snapshot.scause snapshot.stval
        satp := .ofWord _ snapshot.satp
        mcycle := snapshot.mcycle
        privilege := snapshot.privilege
        reservation := snapshot.reservation
        halted := snapshot.halted }

end Hart

end Rv32
