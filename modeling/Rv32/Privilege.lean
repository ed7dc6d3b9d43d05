import Rv32.Word

/-!
# Privilege levels

Code runs at one of three levels. A level is encoded in two bits, of which the code `2` is
reserved; a bit field may hold that code even though no hart ever runs at it.
-/

namespace Rv32

/-- The level at which a hart runs. -/
inductive Privilege where
  | user
  | supervisor
  | machine
deriving DecidableEq, Repr

/-- The two-bit encoding of a level, which may be the reserved one. -/
abbrev PrivilegeCode := BitVec 2

/-- Refusal of a code that stands for no level. -/
structure ReservedPrivilege where
  code : PrivilegeCode
deriving DecidableEq, Repr

namespace PrivilegeCode

/-- The code to which no level is assigned. -/
def reserved : PrivilegeCode := 2

def text (code : PrivilegeCode) : String :=
  if code = 0 then "U" else if code = 1 then "S" else if code = reserved then "2" else "M"

end PrivilegeCode

namespace ReservedPrivilege

def message (error : ReservedPrivilege) : String :=
  s!"privilege level {PrivilegeCode.text error.code} is reserved"

end ReservedPrivilege

namespace Privilege

def code : Privilege → PrivilegeCode
  | user => 0
  | supervisor => 1
  | machine => 3

/-- The level of a code, unless the code is reserved. -/
def ofCode (code : PrivilegeCode) : Except ReservedPrivilege Privilege :=
  if code = 0 then .ok user
  else if code = 1 then .ok supervisor
  else if code = PrivilegeCode.reserved then .error ⟨code⟩
  else .ok machine

def text (level : Privilege) : String := PrivilegeCode.text level.code

instance : LE Privilege := ⟨fun first second => first.code ≤ second.code⟩
instance : LT Privilege := ⟨fun first second => first.code < second.code⟩

instance (first second : Privilege) : Decidable (first ≤ second) :=
  inferInstanceAs (Decidable (first.code ≤ second.code))

instance (first second : Privilege) : Decidable (first < second) :=
  inferInstanceAs (Decidable (first.code < second.code))

/-- How the codes of two levels compare as numbers. -/
def compareCodes (first second : PrivilegeCode) : Ordering := compare first.toNat second.toNat

theorem ofCode_code (level : Privilege) : ofCode level.code = .ok level := by
  cases level <;> rfl

theorem code_ne_reserved (level : Privilege) : level.code ≠ PrivilegeCode.reserved := by
  cases level <;> decide

theorem code_inj {first second : Privilege} (same : first.code = second.code) :
    first = second := by
  cases first <;> cases second <;> first | rfl | exact absurd same (by decide)

end Privilege

end Rv32
