import Rv32.Privilege

/-!
# The status register

`Status` holds the fields of `mstatus` that this hart implements, each with the values it can take;
`sstatus` is a window on some of them. `Status.toWord` lays the fields out in a word and
`Status.ofWord?` reads them back, refusing every word that no status has.

Three of the fields decide how addresses are translated: a write says whether it changed one.
-/

namespace Rv32

/-- What is known about the state of an extension since it was last saved. -/
inductive ExtensionStatus where
  | off
  | initial
  | clean
  | dirty
deriving DecidableEq, Repr

namespace ExtensionStatus

def toBits : ExtensionStatus → BitVec 2
  | off => 0
  | initial => 1
  | clean => 2
  | dirty => 3

def ofBits (bits : BitVec 2) : ExtensionStatus :=
  match bits with
  | 0 => off
  | 1 => initial
  | 2 => clean
  | 3 => dirty

def text : ExtensionStatus → String
  | off => "Off"
  | initial => "Initial"
  | clean => "Clean"
  | dirty => "Dirty"

@[simp]
theorem ofBits_toBits (status : ExtensionStatus) : ofBits status.toBits = status := by
  cases status <;> rfl

@[simp]
theorem toBits_ofBits (bits : BitVec 2) : (ofBits bits).toBits = bits := by
  revert bits
  decide

end ExtensionStatus

/-- The fields of the status register, under the names that the architecture gives them. `spp` is
set when the level to return to from S-mode is S-mode itself. -/
structure Status where
  sie : Bool
  mie : Bool
  spie : Bool
  mpie : Bool
  spp : Bool
  mpp : Privilege
  fs : ExtensionStatus
  mprv : Bool
  sum : Bool
  mxr : Bool
  tvm : Bool
  tw : Bool
  tsr : Bool
deriving DecidableEq, Repr

namespace Status

/-- The status after a reset: all fields zero. -/
def reset : Status :=
  ⟨false, false, false, false, false, .user, .off, false, false, false, false, false, false⟩

/-- The bits of `mstatus` that can be set. -/
def machineMask : Word := 0x807E79AA

/-- The bits of `sstatus`, among them the field for other extensions, which is always zero. -/
def supervisorMask : Word := 0x800DE122

/-- Whether some extension state has to be saved. -/
def sd (status : Status) : Bool := status.fs = .dirty

/-- The status of extensions other than floating point, of which there are none. -/
def xs (_ : Status) : ExtensionStatus := .off

/-- The level to return to from S-mode. -/
def sppLevel (status : Status) : Privilege := if status.spp then .supervisor else .user

/-- The contents of `mstatus`. -/
def toWord (status : Status) : Word :=
  BitVec.ofBool status.sd ++ 0#8 ++ BitVec.ofBool status.tsr ++ BitVec.ofBool status.tw ++
    BitVec.ofBool status.tvm ++ BitVec.ofBool status.mxr ++ BitVec.ofBool status.sum ++
    BitVec.ofBool status.mprv ++ status.xs.toBits ++ status.fs.toBits ++ status.mpp.code ++
    0#2 ++ BitVec.ofBool status.spp ++ BitVec.ofBool status.mpie ++ 0#1 ++
    BitVec.ofBool status.spie ++ 0#1 ++ BitVec.ofBool status.mie ++ 0#1 ++
    BitVec.ofBool status.sie ++ 0#1

/-- The contents of `sstatus`. -/
def supervisorWord (status : Status) : Word := status.toWord &&& supervisorMask

/-- The fields that a word spells, with `mpp` in place of a reserved level. -/
def ofFields (word : Word) (mpp : Privilege) : Status where
  sie := word.getLsbD 1
  mie := word.getLsbD 3
  spie := word.getLsbD 5
  mpie := word.getLsbD 7
  spp := word.getLsbD 8
  mpp := match Privilege.ofCode (word.extractLsb' 11 2) with
    | .ok level => level
    | .error _ => mpp
  fs := ExtensionStatus.ofBits (word.extractLsb' 13 2)
  mprv := word.getLsbD 17
  sum := word.getLsbD 18
  mxr := word.getLsbD 19
  tvm := word.getLsbD 20
  tw := word.getLsbD 21
  tsr := word.getLsbD 22

/-- The status that has exactly these contents. -/
def ofWord? (word : Word) : Option Status :=
  let status := ofFields word .user
  if status.toWord = word then some status else none

/-- The status after a write of those bits of `value` that `selected` names. A reserved level is
not taken over. -/
def write (status : Status) (value selected : Word) : Status :=
  ofFields (status.toWord &&& ~~~selected ||| value &&& selected) status.mpp

/-- Whether loads and stores are translated in another way after a change of the status. -/
def translationDiffers (before after : Status) : Bool :=
  before.mprv != after.mprv || before.sum != after.sum || before.mxr != after.mxr ||
    (before.mprv && before.mpp != after.mpp)

/-- The status with `mpp` set to the level of a code, unless the code is reserved. -/
def setMppCode (status : Status) (code : PrivilegeCode) : Status :=
  match Privilege.ofCode code with
  | .ok level => { status with mpp := level }
  | .error _ => status

/-- The status with `spp` set to the level of a code, unless that level cannot be stored. -/
def setSppCode (status : Status) (code : PrivilegeCode) : Status :=
  match Privilege.ofCode code with
  | .ok .user => { status with spp := false }
  | .ok .supervisor => { status with spp := true }
  | _ => status

end Status

end Rv32
