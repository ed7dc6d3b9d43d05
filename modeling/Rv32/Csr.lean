import Rv32.Privilege
import Rv32.Text.Hex

/-!
# Control and status registers

The registers that this hart implements, their addresses, and the rules of access that follow from
the address alone: the two highest bits of its twelve say whether the register can be written, the
next two name the lowest level that may use it.
-/

namespace Rv32

/-- Where a program or the host asks for a register. Only twelve bits are valid. -/
abbrev CsrAddress := BitVec 16

/-- Why an access to a register is refused. -/
inductive CsrError where
  | unsupported (address : CsrAddress)
  | privileged (address : CsrAddress) (required : PrivilegeCode) (actual : Privilege)
  | readOnly (address : CsrAddress)
  | disabled (address : CsrAddress)
deriving DecidableEq, Repr

namespace CsrError

def message : CsrError → String
  | unsupported address => s!"unsupported CSR: {Hex.register address}"
  | privileged address required actual =>
    s!"cannot access specifier {Hex.register address} from privilege level {actual.text}, " ++
      s!"since it requires privilege level {PrivilegeCode.text required}"
  | readOnly address => s!"writing to read-only CSR {Hex.register address} is invalid"
  | disabled address => s!"access to CSR {Hex.register address} is disabled"

end CsrError

namespace CsrAddress

/-- Whether the address fits in twelve bits. -/
def isValid (address : CsrAddress) : Bool := address < 0x1000

/-- The shadows of the machine counters that any level may be allowed to read. -/
def isCounter (address : CsrAddress) : Bool :=
  (0xC00 ≤ address && address ≤ 0xC1F) || (0xC80 ≤ address && address ≤ 0xC9F)

/-- Whether the register can only be read. -/
def isReadOnly (address : CsrAddress) : Bool := address >>> 10 == 0b11 || isCounter address

/-- The lowest level that may use the register, which can be the reserved one. -/
def requiredLevel (address : CsrAddress) : PrivilegeCode := address.extractLsb' 8 2

/-- The access rules that follow from the address. Whether the register exists is not asked. -/
def checkAccess (address : CsrAddress) (level : Privilege) (writes : Bool) :
    Except CsrError Unit :=
  if !isValid address then .error (.unsupported address)
  else if writes && isReadOnly address then .error (.readOnly address)
  else if level.code < requiredLevel address then
    .error (.privileged address (requiredLevel address) level)
  else .ok ()

end CsrAddress

/-- The implemented registers, under the names that the architecture gives them. -/
inductive Csr where
  | sstatus
  | sie
  | stvec
  | scounteren
  | sscratch
  | sepc
  | scause
  | stval
  | sip
  | satp
  | mstatus
  | misa
  | medeleg
  | mideleg
  | mie
  | mtvec
  | mcounteren
  | mstatush
  | mscratch
  | mepc
  | mcause
  | mtval
  | mip
  | mcycle
  | minstret
  | mcycleh
  | minstreth
  | cycle
  | time
  | instret
  | cycleh
  | timeh
  | instreth
  | mvendorid
  | marchid
  | mimpid
  | mhartid
deriving DecidableEq, Repr

namespace Csr

def address : Csr → CsrAddress
  | sstatus => 0x100
  | sie => 0x104
  | stvec => 0x105
  | scounteren => 0x106
  | sscratch => 0x140
  | sepc => 0x141
  | scause => 0x142
  | stval => 0x143
  | sip => 0x144
  | satp => 0x180
  | mstatus => 0x300
  | misa => 0x301
  | medeleg => 0x302
  | mideleg => 0x303
  | mie => 0x304
  | mtvec => 0x305
  | mcounteren => 0x306
  | mstatush => 0x310
  | mscratch => 0x340
  | mepc => 0x341
  | mcause => 0x342
  | mtval => 0x343
  | mip => 0x344
  | mcycle => 0xB00
  | minstret => 0xB02
  | mcycleh => 0xB80
  | minstreth => 0xB82
  | cycle => 0xC00
  | time => 0xC01
  | instret => 0xC02
  | cycleh => 0xC80
  | timeh => 0xC81
  | instreth => 0xC82
  | mvendorid => 0xF11
  | marchid => 0xF12
  | mimpid => 0xF13
  | mhartid => 0xF14

/-- All implemented registers. -/
def all : List Csr :=
  [sstatus, sie, stvec, scounteren, sscratch, sepc, scause, stval, sip, satp, mstatus, misa,
    medeleg, mideleg, mie, mtvec, mcounteren, mstatush, mscratch, mepc, mcause, mtval, mip, mcycle,
    minstret, mcycleh, minstreth, cycle, time, instret, cycleh, timeh, instreth, mvendorid, marchid,
    mimpid, mhartid]

/-- The register at an address, if one is implemented there. -/
def ofAddress? (address : CsrAddress) : Option Csr :=
  all.find? fun register => register.address == address

theorem mem_all (register : Csr) : register ∈ all := by
  cases register <;> decide

theorem ofAddress?_address (register : Csr) : ofAddress? register.address = some register := by
  cases register <;> rfl

theorem address_of_ofAddress? {address : CsrAddress} {register : Csr}
    (found : ofAddress? address = some register) : register.address = address := by
  have matched := List.find?_some found
  simpa using matched

end Csr

end Rv32
