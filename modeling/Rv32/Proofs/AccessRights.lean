import Rv32.Hart.Csr

/-!
# Rights of access to control and status registers

Whether a program may use a register is decided by rules of two kinds. Those of the first follow
from the address: only twelve bits are valid, some registers can only be read, and each has a lowest
level. Those of the second belong to single registers (`Csr.opensTo`): the translation register can
be closed to S-mode, and the counters to all levels below M-mode.

What a level may do, each higher level may do as well (`Hart.access_rights_monotone`). The rules of
the second kind would not grant that alone, because what closes the translation register to S-mode
does not close it to U-mode. Its address does.
-/

namespace Rv32

/-- A level below M-mode reaches codes of levels only, not the reserved one. -/
theorem Privilege.exists_ofCode {level : Privilege} (below : level ≠ .machine)
    {code : PrivilegeCode} (reached : code ≤ level.code) :
    ∃ required, ofCode code = .ok required ∧ required ≤ level := by
  have small : level.code.toNat ≤ 1 := by
    cases level with
    | user | supervisor => decide
    | machine => exact absurd rfl below
  have number : code.toNat = 0 ∨ code.toNat = 1 := by
    have bound := BitVec.le_def.1 reached
    omega
  rcases number with zero | one
  · obtain rfl : code = 0 := BitVec.eq_of_toNat_eq zero
    exact ⟨.user, rfl, reached⟩
  · obtain rfl : code = 1 := BitVec.eq_of_toNat_eq one
    exact ⟨.supervisor, rfl, reached⟩

/-! ## The rules of an address -/

namespace CsrAddress

variable {address : CsrAddress} {level low high : Privilege} {writes : Bool}

/-- An access that observes the rules of the address. -/
structure Admits (address : CsrAddress) (level : Privilege) (writes : Bool) : Prop where
  valid : address.isValid = true
  writable : writes = true → address.isReadOnly = false
  reached : address.requiredLevel ≤ level.code

theorem checkAccess_eq_ok_iff :
    address.checkAccess level writes = .ok () ↔ address.Admits level writes := by
  unfold checkAccess
  split
  · rename_i invalid
    exact iff_of_false nofun fun admits => by simp [admits.valid] at invalid
  · rename_i valid
    split
    · rename_i refused
      obtain ⟨isWrite, readOnly⟩ := Bool.and_eq_true_iff.1 refused
      exact iff_of_false nofun fun admits => by simp [admits.writable isWrite] at readOnly
    · rename_i granted
      split
      · rename_i below
        exact iff_of_false nofun fun admits => BitVec.not_lt.2 admits.reached below
      · rename_i reached
        refine iff_of_true rfl ⟨by simpa using valid, fun isWrite => ?_, BitVec.not_lt.1 reached⟩
        simpa [isWrite] using granted

theorem Admits.mono (admits : address.Admits low writes) (above : low ≤ high) :
    address.Admits high writes :=
  ⟨admits.valid, admits.writable, BitVec.le_trans admits.reached above⟩

/-- Whoever may write may read. -/
theorem Admits.read (admits : address.Admits level true) : address.Admits level false :=
  ⟨admits.valid, nofun, admits.reached⟩

theorem Admits.lt (admits : address.Admits level writes) : address.toNat < 0x1000 :=
  BitVec.lt_def.1 (of_decide_eq_true admits.valid)

/-- The two highest bits of twelve, if they are set, refuse all writes. -/
theorem Admits.highest_ne (admits : address.Admits level true) :
    address.extractLsb' 10 2 ≠ 3 := by
  intro highest
  have small := admits.lt
  have bits := congrArg BitVec.toNat highest
  rw [BitVec.extractLsb'_toNat, Nat.shiftRight_eq_div_pow] at bits
  change address.toNat / 1024 % 4 = 3 at bits
  have shifted : address >>> 10 = 0b11 := by
    refine BitVec.eq_of_toNat_eq ?_
    rw [BitVec.toNat_ushiftRight, Nat.shiftRight_eq_div_pow]
    change address.toNat / 1024 = 3
    omega
  have writable := admits.writable rfl
  unfold isReadOnly at writable
  rw [shifted] at writable
  cases writable

end CsrAddress

/-! ## The rules of single registers -/

/-- What a level may count, each higher level may. -/
theorem TrapSetup.counterEnabled_mono {setup : TrapSetup} {counter : Counter}
    {low high : Privilege} (above : low ≤ high)
    (enabled : setup.counterEnabled low counter = true) :
    setup.counterEnabled high counter = true := by
  cases high with
  | machine => rfl
  | supervisor =>
      cases low with
      | user => exact (Bool.and_eq_true_iff.1 enabled).1
      | supervisor => exact enabled
      | machine => exact absurd above (by decide)
  | user =>
      cases low with
      | user => exact enabled
      | supervisor | machine => exact absurd above (by decide)

namespace Csr

/-- Whether the rules of a register itself let a level use it. -/
def opensTo (register : Csr) (level : Privilege) (status : Status) (setup : TrapSetup) : Bool :=
  match register with
  | satp => !(level = .supervisor && status.tvm)
  | cycle | cycleh => setup.counterEnabled level .cycles
  | instret | instreth => setup.counterEnabled level .instructions
  | _ => true

/-- What a register opens to a level that its address lets through, it opens to each higher one. -/
theorem opensTo_mono {register : Csr} {low high : Privilege} {status : Status} {setup : TrapSetup}
    (above : low ≤ high) (reached : register.address.requiredLevel ≤ low.code)
    (opens : register.opensTo low status setup = true) :
    register.opensTo high status setup = true := by
  cases register with
  | satp =>
      cases high with
      | user | machine => rfl
      | supervisor =>
          -- From U-mode the step up could close the register, but its address is above U-mode.
          cases low with
          | user => exact absurd reached (by decide)
          | supervisor => exact opens
          | machine => exact absurd above (by decide)
  | cycle | cycleh | instret | instreth => exact TrapSetup.counterEnabled_mono above opens
  | _ => rfl

end Csr

/-! ## Both together -/

namespace Hart

variable {hart : Hart} {address : CsrAddress} {writes : Bool} {low high : Privilege}

/-- An implemented register is asked after its address. -/
theorem checkCsr_of_found {register : Csr} (found : Csr.ofAddress? address = some register) :
    hart.checkCsr address writes =
      (address.checkAccess hart.privilege writes).bind fun _ =>
        if register.opensTo hart.privilege hart.status hart.setup then .ok ()
        else .error (.disabled address) := by
  unfold checkCsr
  rw [found]
  cases register <;> rfl

/-- Where no register is implemented, the address alone is asked. -/
theorem checkCsr_of_missing (missing : Csr.ofAddress? address = none) :
    hart.checkCsr address writes = address.checkAccess hart.privilege writes := by
  unfold checkCsr
  rw [missing]
  cases address.checkAccess hart.privilege writes <;> rfl

/-- A program may make an access that the rules of the address and those of the register admit. -/
theorem checkCsr_eq_ok_iff :
    hart.checkCsr address writes = .ok () ↔
      address.Admits hart.privilege writes ∧
        ∀ register, Csr.ofAddress? address = some register →
          register.opensTo hart.privilege hart.status hart.setup = true := by
  rw [← CsrAddress.checkAccess_eq_ok_iff]
  rcases found : Csr.ofAddress? address with _ | register
  · rw [checkCsr_of_missing found]
    exact (and_iff_left nofun).symm
  · rw [checkCsr_of_found found]
    cases address.checkAccess hart.privilege writes with
    | error refusal => exact iff_of_false nofun nofun
    | ok granted =>
        unfold Except.bind
        dsimp only
        split
        · rename_i opens
          refine iff_of_true rfl ⟨rfl, fun other same => ?_⟩
          cases same
          exact opens
        · rename_i closed
          exact iff_of_false nofun fun both => closed (both.2 register rfl)

/-- What the rules permit at a level, they permit at each higher one. -/
theorem checkCsr_mono (above : low ≤ high)
    (allowed : { hart with privilege := low }.checkCsr address writes = .ok ()) :
    { hart with privilege := high }.checkCsr address writes = .ok () := by
  obtain ⟨admits, opens⟩ := checkCsr_eq_ok_iff.1 allowed
  refine checkCsr_eq_ok_iff.2 ⟨admits.mono above, fun register found => ?_⟩
  have reached := admits.reached
  rw [← Csr.address_of_ofAddress? found] at reached
  exact Csr.opensTo_mono above reached (opens register found)

theorem checkCsr_read (allowed : hart.checkCsr address true = .ok ()) :
    hart.checkCsr address false = .ok () := by
  obtain ⟨admits, opens⟩ := checkCsr_eq_ok_iff.1 allowed
  exact checkCsr_eq_ok_iff.2 ⟨admits.read, opens⟩

/-- The rights of access ascend with the levels. Of two harts that differ in their levels alone, the
one at the higher level may make every access that the other one may, whatever is closed to S-mode
and whichever counters are enabled. A register that may be written may be read. Every access that is
permitted is to an address of twelve bits. Below M-mode the bits 9 and 8 of this address then spell
a level that is not above that of the hart, and for a write the bits 11 and 10 are not both set. -/
theorem access_rights_monotone (hart : Hart) (address : CsrAddress) :
    (∀ low high writes, low ≤ high →
      { hart with privilege := low }.checkCsr address writes = .ok () →
      { hart with privilege := high }.checkCsr address writes = .ok ()) ∧
    (hart.checkCsr address true = .ok () → hart.checkCsr address false = .ok ()) ∧
    (∀ writes, hart.checkCsr address writes = .ok () →
      address.toNat < 0x1000 ∧
      (hart.privilege ≠ .machine →
        ∃ required, Privilege.ofCode (address.extractLsb' 8 2) = .ok required ∧
          required ≤ hart.privilege)) ∧
    (address.extractLsb' 10 2 = 3 → ∃ refusal, hart.checkCsr address true = .error refusal) := by
  refine ⟨fun low high writes above => checkCsr_mono above, checkCsr_read,
    fun writes allowed => ?_, fun highest => ?_⟩
  · obtain ⟨admits, -⟩ := checkCsr_eq_ok_iff.1 allowed
    exact ⟨admits.lt, fun below => Privilege.exists_ofCode below admits.reached⟩
  · rcases checked : hart.checkCsr address true with refusal | granted
    · exact ⟨refusal, rfl⟩
    · obtain ⟨admits, -⟩ := checkCsr_eq_ok_iff.1 checked
      exact absurd highest admits.highest_ne

/-- A hart in S-mode that is kept from the translation register and may read one of the counters. -/
def restricted : Hart :=
  { Hart.initial ⟨0, 0⟩ with
    privilege := .supervisor
    status := { Status.reset with tvm := true }
    setup := { TrapSetup.reset with mcounteren := .ofWord _ 0b001 } }

/-- M-mode may do what this hart may, and more. -/
theorem restricted_rights :
    restricted.checkCsr 0xC00 false = .ok () ∧
      { restricted with privilege := .machine }.checkCsr 0xC00 false = .ok () ∧
      restricted.checkCsr 0xC02 false = .error (.disabled 0xC02) ∧
      restricted.checkCsr 0x180 false = .error (.disabled 0x180) ∧
      { restricted with privilege := .machine }.checkCsr 0x180 false = .ok () := by
  have counts : restricted.checkCsr 0xC00 false = .ok () := rfl
  have above : Privilege.supervisor ≤ Privilege.machine := by decide
  obtain ⟨ascend, -⟩ := access_rights_monotone restricted 0xC00
  exact ⟨counts, ascend .supervisor .machine false above counts, rfl, rfl, rfl⟩

end Hart

end Rv32
