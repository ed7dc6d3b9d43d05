import Rv32.Csr
import Rv32.Hart

/-!
# Access to control and status registers

`Hart.readCsr` and `Hart.writeCsr` give every implemented register its meaning. Several registers
share storage: the windows of S-mode on the status and interrupt registers, and the four names of
each half of the cycle counter. A write obeys the rules of its register, so what is read back may
differ from what was written; a write to a register that is fixed changes nothing.

`Hart.checkCsr` says whether a program may make an access. The host needs no permission.
-/

namespace Rv32

/-- The instruction set: 32 bits, with the extensions I, M, A, C and the levels S and U. -/
def misaWord : Word := 0x40141105

namespace Hart

/-- Whether a program at the level of the hart may access a register. Whether the register exists
is not asked. -/
def checkCsr (hart : Hart) (address : CsrAddress) (writes : Bool) : Except CsrError Unit := do
  CsrAddress.checkAccess address hart.privilege writes
  let enabled : Bool :=
    match Csr.ofAddress? address with
    | some .satp => !(hart.privilege = .supervisor && hart.status.tvm)
    | some .cycle | some .cycleh => hart.setup.counterEnabled hart.privilege .cycles
    | some .instret | some .instreth => hart.setup.counterEnabled hart.privilege .instructions
    | _ => true
  if enabled then .ok () else .error (.disabled address)

/-- The contents of a register. -/
def readCsr (hart : Hart) : Csr → Word
  | .sstatus => hart.status.supervisorWord
  | .sie => hart.interrupts.sie
  | .stvec => hart.setup.stvec.bits
  | .scounteren => hart.setup.scounteren.bits
  | .sscratch => hart.supervisorTrap.scratch
  | .sepc => hart.supervisorTrap.epc.bits
  | .scause => hart.supervisorTrap.cause
  | .stval => hart.supervisorTrap.tval
  | .sip => hart.interrupts.sip
  | .satp => hart.satp.bits
  | .mstatus => hart.status.toWord
  | .misa => misaWord
  | .medeleg => hart.setup.medeleg.bits
  | .mideleg => hart.interrupts.mideleg.bits
  | .mie => hart.interrupts.mie.bits
  | .mtvec => hart.setup.mtvec.bits
  | .mcounteren => hart.setup.mcounteren.bits
  | .mstatush => 0
  | .mscratch => hart.machineTrap.scratch
  | .mepc => hart.machineTrap.epc.bits
  | .mcause => hart.machineTrap.cause
  | .mtval => hart.machineTrap.tval
  | .mip => hart.interrupts.mip
  | .mcycle | .minstret | .cycle | .instret => hart.mcycle.setWidth 32
  | .mcycleh | .minstreth | .cycleh | .instreth => hart.mcycle.extractLsb' 32 32
  | .time => hart.time.setWidth 32
  | .timeh => hart.time.extractLsb' 32 32
  | .mvendorid | .marchid | .mimpid => 0
  | .mhartid => hart.config.hartId

/-- A write to the status register. Cached translations are lost if it changes how addresses are
translated. -/
def writeStatus (hart : Hart) (value selected : Word) : Logged Hart :=
  let status := hart.status.write value selected
  let after := { hart with status := status }
  if hart.status.translationDiffers status then after.flush else pure after

/-- A write to the translation register, which makes cached translations invalid if it changes
anything. -/
def writeSatp (hart : Hart) (value : Word) : Logged Hart :=
  let satp : Satp := .ofWord _ value
  if satp = hart.satp then pure hart else { hart with satp := satp }.flush

/-- The hart after a write of `value` to a register. -/
def writeCsr (hart : Hart) (register : Csr) (value : Word) : Logged Hart :=
  match register with
  | .sstatus => hart.writeStatus value Status.supervisorMask
  | .mstatus => hart.writeStatus value Status.machineMask
  | .satp => hart.writeSatp value
  | .sie => pure { hart with interrupts := hart.interrupts.writeSie value }
  | .sip => pure { hart with interrupts := hart.interrupts.writeSip value }
  | .mideleg => pure { hart with interrupts := hart.interrupts.writeMideleg value }
  | .mie => pure { hart with interrupts := hart.interrupts.writeMie value }
  | .mip => pure { hart with interrupts := hart.interrupts.writeMip value }
  | .stvec => pure { hart with setup := { hart.setup with stvec := .ofWord _ value } }
  | .scounteren => pure { hart with setup := { hart.setup with scounteren := .ofWord _ value } }
  | .medeleg => pure { hart with setup := { hart.setup with medeleg := .ofWord _ value } }
  | .mtvec => pure { hart with setup := { hart.setup with mtvec := .ofWord _ value } }
  | .mcounteren => pure { hart with setup := { hart.setup with mcounteren := .ofWord _ value } }
  | .sscratch =>
    pure { hart with supervisorTrap := { hart.supervisorTrap with scratch := value } }
  | .sepc =>
    pure { hart with supervisorTrap := { hart.supervisorTrap with epc := .ofWord _ value } }
  | .scause => pure { hart with supervisorTrap := { hart.supervisorTrap with cause := value } }
  | .stval => pure { hart with supervisorTrap := { hart.supervisorTrap with tval := value } }
  | .mscratch => pure { hart with machineTrap := { hart.machineTrap with scratch := value } }
  | .mepc => pure { hart with machineTrap := { hart.machineTrap with epc := .ofWord _ value } }
  | .mcause => pure { hart with machineTrap := { hart.machineTrap with cause := value } }
  | .mtval => pure { hart with machineTrap := { hart.machineTrap with tval := value } }
  | .mcycle | .minstret =>
    pure { hart with mcycle := (hart.mcycle.extractLsb' 32 32 : Word) ++ value }
  | .mcycleh | .minstreth =>
    pure { hart with mcycle := value ++ (hart.mcycle.setWidth 32 : Word) }
  | .misa | .mstatush | .cycle | .time | .instret | .cycleh | .timeh | .instreth | .mvendorid
  | .marchid | .mimpid | .mhartid => pure hart

/-- Read the register at an address, for the host. -/
def readAddress (hart : Hart) (address : CsrAddress) : Except CsrError Word :=
  match Csr.ofAddress? address with
  | some register => .ok (hart.readCsr register)
  | none => .error (.unsupported address)

/-- Write the register at an address, for the host. -/
def writeAddress (hart : Hart) (address : CsrAddress) (value : Word) :
    Except CsrError (Logged Hart) :=
  match Csr.ofAddress? address with
  | some register => .ok (hart.writeCsr register value)
  | none => .error (.unsupported address)

end Hart

end Rv32
