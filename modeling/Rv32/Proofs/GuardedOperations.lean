import Mathlib.Data.BitVec
import Rv32.Address.Range
import Rv32.Registers

/-!
# Operations that are not defined everywhere

Some of the operations that a hart is made of have a domain: a value may be too large for its bit
field, an amount too large for a shift, a sum for its word, a place for its table, a divisor may be
zero, and an address may lie outside the range in which it is to have an offset. An operation here
asks first. What it gives is `Checked`: a value, or the `Breach` that was found.

Operations on literals alone are defined or not once and for all, so nothing asks about them.
-/

namespace Rv32

/-- The use of an operation outside its domain. -/
inductive Breach where
  | field (overflow : FieldOverflow)
  | overflow (width : Nat)
  | shift (width amount : Nat)
  | division
  | place (place : Nat)
  | offset (range : AddressRange) (address : Word)
deriving DecidableEq, Repr

/-- The value of a computation that stays inside the domains of its operations, or else the first
breach. -/
abbrev Checked := Except Breach

namespace Checked

/-- The bit field of `bits` bits holding `value`. -/
def field (bits value : Nat) : Checked (BitVec bits) := (checkedField bits value).mapError .field

section Words

variable {width : Nat}

/-- The value of an operation that must not overflow. -/
def exact (operation : BitVec width → BitVec width → BitVec width)
    (overflows : BitVec width → BitVec width → Bool) (first second : BitVec width) :
    Checked (BitVec width) :=
  if overflows first second then .error (.overflow width) else .ok (operation first second)

def add : BitVec width → BitVec width → Checked (BitVec width) :=
  exact (· + ·) BitVec.uaddOverflow

def sub : BitVec width → BitVec width → Checked (BitVec width) :=
  exact (· - ·) BitVec.usubOverflow

def mul : BitVec width → BitVec width → Checked (BitVec width) :=
  exact (· * ·) BitVec.umulOverflow

/-- The product of signed values. -/
def mulSigned : BitVec width → BitVec width → Checked (BitVec width) :=
  exact (· * ·) BitVec.smulOverflow

/-- A quotient or a remainder. -/
def divide (division : BitVec width → BitVec width → BitVec width)
    (dividend divisor : BitVec width) : Checked (BitVec width) :=
  if divisor = 0 then .error .division else .ok (division dividend divisor)

/-- A shift by less than the width. -/
def shift (shifted : BitVec width → Nat → BitVec width) (value : BitVec width) (amount : Nat) :
    Checked (BitVec width) :=
  if amount < width then .ok (shifted value amount) else .error (.shift width amount)

def shiftLeft : BitVec width → Nat → Checked (BitVec width) := shift (· <<< ·)

def shiftRight : BitVec width → Nat → Checked (BitVec width) := shift (· >>> ·)

/-- The mask of the `bits` lowest bits. -/
def lowMask (bits : Nat) : Checked (BitVec width) := do sub (← shiftLeft 1 bits) 1

/-- The bit at a place. -/
def bit (value : BitVec width) (place : Nat) : Checked Bool :=
  if place < width then .ok (value.getLsbD place) else .error (.place place)

end Words

/-- A place that a table of `count` items has. -/
def within (count place : Nat) : Checked Unit :=
  if place < count then .ok () else .error (.place place)

/-- The item at a place. -/
def item {α : Type} (items : List α) (place : Nat) : Checked α :=
  match items[place]? with
  | some found => .ok found
  | none => .error (.place place)

/-- The distance of an address from the start of a range that contains it. -/
def offsetOf (range : AddressRange) (address : Word) : Checked Word :=
  if range.contains address then sub address range.first else .error (.offset range address)

/-- A computation without a breach, which gives a result or is refused. -/
def settled {ε α : Type} (result : Except ε α) : ExceptT ε Checked α := ExceptT.mk (.ok result)

/-! ## Inside the domains -/

@[simp]
theorem ok_bind {α β : Type} (value : α) (next : α → Checked β) :
    (Except.ok value >>= next : Checked β) = next value := rfl

theorem lift_ok_bind {ε α β : Type} (value : α) (next : α → ExceptT ε Checked β) :
    ((liftM (Except.ok value : Checked α) : ExceptT ε Checked α) >>= next) = next value := rfl

@[simp]
theorem run_settled {ε α : Type} (result : Except ε α) : (settled result).run = .ok result := rfl

section Words

variable {width : Nat}

theorem field_eq {bits : Nat} (value : BitVec width) (fits : value.toNat < 2 ^ bits) :
    field bits value.toNat = .ok (value.setWidth bits) := by
  have below : value.toNat < 1 <<< bits := by rwa [Nat.one_shiftLeft]
  unfold field checkedField
  rw [if_pos below, BitVec.ofNat_toNat]
  rfl

theorem toNat_and_mask (value : BitVec width) {mask : BitVec width} {bits : Nat}
    (isMask : mask.toNat = 2 ^ bits - 1) : (value &&& mask).toNat = value.toNat % 2 ^ bits := by
  rw [BitVec.toNat_and, isMask, Nat.and_two_pow_sub_one_eq_mod]

/-- What a mask leaves of a value fits the field that the mask was made for. -/
theorem field_mask (value : BitVec width) {mask : BitVec width} {bits : Nat}
    (isMask : mask.toNat = 2 ^ bits - 1) :
    field bits (value &&& mask).toNat = .ok (value.setWidth bits) := by
  have masked := toNat_and_mask value isMask
  have fits : (value &&& mask).toNat < 2 ^ bits := masked ▸ Nat.mod_lt _ (Nat.two_pow_pos bits)
  rw [field_eq _ fits]
  refine congrArg Except.ok (BitVec.eq_of_toNat_eq ?_)
  rw [BitVec.toNat_setWidth, BitVec.toNat_setWidth, masked, Nat.mod_mod]

theorem exact_eq {operation : BitVec width → BitVec width → BitVec width}
    {overflows : BitVec width → BitVec width → Bool} {first second : BitVec width}
    (fits : overflows first second = false) :
    exact operation overflows first second = .ok (operation first second) :=
  if_neg (Bool.eq_false_iff.1 fits)

theorem add_eq {first second : BitVec width} (fits : first.toNat + second.toNat < 2 ^ width) :
    add first second = .ok (first + second) :=
  exact_eq (decide_eq_false (Nat.not_le.2 fits))

theorem sub_eq {first second : BitVec width} (fits : second.toNat ≤ first.toNat) :
    sub first second = .ok (first - second) :=
  exact_eq (decide_eq_false (Nat.not_lt.2 fits))

theorem mul_eq {first second : BitVec width} (fits : first.toNat * second.toNat < 2 ^ width) :
    mul first second = .ok (first * second) :=
  exact_eq (decide_eq_false (Nat.not_le.2 fits))

theorem divide_eq (division : BitVec width → BitVec width → BitVec width)
    (dividend : BitVec width) {divisor : BitVec width} (nonzero : divisor ≠ 0) :
    divide division dividend divisor = .ok (division dividend divisor) :=
  if_neg nonzero

theorem shift_eq (shifted : BitVec width → Nat → BitVec width) (value : BitVec width)
    {amount : Nat} (fits : amount < width) :
    shift shifted value amount = .ok (shifted value amount) :=
  if_pos fits

theorem shiftLeft_eq (value : BitVec width) {amount : Nat} (fits : amount < width) :
    shiftLeft value amount = .ok (value <<< amount) :=
  shift_eq _ value fits

theorem shiftRight_eq (value : BitVec width) {amount : Nat} (fits : amount < width) :
    shiftRight value amount = .ok (value >>> amount) :=
  shift_eq _ value fits

theorem toNat_one_shiftLeft {bits : Nat} (fits : bits < width) :
    ((1 : BitVec width) <<< bits).toNat = 2 ^ bits := by
  have one : (1 : BitVec width).toNat = 1 := Nat.mod_eq_of_lt (Nat.one_lt_two_pow (by omega))
  have small : 2 ^ bits < 2 ^ width := Nat.pow_lt_pow_right (by decide) fits
  rw [BitVec.toNat_shiftLeft, one, Nat.one_shiftLeft, Nat.mod_eq_of_lt small]

theorem one_le_one_shiftLeft {bits : Nat} (fits : bits < width) :
    (1 : BitVec width).toNat ≤ ((1 : BitVec width) <<< bits).toNat := by
  rw [toNat_one_shiftLeft fits]
  exact Nat.le_trans (Nat.mod_le _ _) Nat.one_le_two_pow

theorem toNat_lowMask {bits : Nat} (fits : bits < width) :
    ((1 : BitVec width) <<< bits - 1).toNat = 2 ^ bits - 1 := by
  have one : (1 : BitVec width).toNat = 1 := Nat.mod_eq_of_lt (Nat.one_lt_two_pow (by omega))
  rw [BitVec.toNat_sub_of_le (BitVec.le_def.2 (one_le_one_shiftLeft fits)),
    toNat_one_shiftLeft fits, one]

theorem lowMask_eq {bits : Nat} (fits : bits < width) :
    lowMask bits = .ok ((1 : BitVec width) <<< bits - 1) := by
  rw [lowMask, shiftLeft_eq _ fits, ok_bind, sub_eq (one_le_one_shiftLeft fits)]

theorem bit_eq (value : BitVec width) {place : Nat} (inside : place < width) :
    bit value place = .ok (value.getLsbD place) :=
  if_pos inside

end Words

/-- A loop of steps that are defined for all of its items. -/
theorem foldlM_eq {α β : Type} {step : β → α → Checked β} {defined : β → α → β} {items : List α}
    (same : ∀ item ∈ items, ∀ state, step state item = .ok (defined state item)) (start : β) :
    items.foldlM step start = .ok (items.foldl defined start) := by
  induction items generalizing start with
  | nil => rfl
  | cons first rest ih =>
      obtain ⟨here, later⟩ := List.forall_mem_cons.1 same
      rw [List.foldlM_cons, here, ok_bind, ih later, List.foldl_cons]

theorem within_eq {count place : Nat} (inside : place < count) : within count place = .ok () :=
  if_pos inside

theorem item_eq {α : Type} {items : List α} {place : Nat} {found : α}
    (isItem : items[place]? = some found) : item items place = .ok found := by
  unfold item
  rw [isItem]

theorem offsetOf_eq {range : AddressRange} {address : Word}
    (inside : range.contains address = true) :
    offsetOf range address = .ok (range.offsetOf address) :=
  (if_pos inside).trans (sub_eq (BitVec.le_def.1 (AddressRange.contains_iff.1 inside).1))

end Checked

end Rv32
