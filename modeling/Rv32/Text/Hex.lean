/-!
# Hexadecimal text

Addresses and register values are shown in base sixteen, after `0x`, with as many leading zeros as
the place of use asks for.
-/

namespace Rv32.Hex

/-- The digits of `value` in lower case, filled up with zeros to at least `least` digits. -/
def digits (value least : Nat) : String :=
  String.ofList ((Nat.toDigits 16 value).leftpad least '0')

/-- The text of `value` after `0x`, with no leading zeros. -/
def short (value : Nat) : String := "0x" ++ digits value 1

/-- The text of a word after `0x`, always with eight digits. -/
def full (value : BitVec 32) : String := "0x" ++ digits value.toNat 8

/-- The text of a register address after `0x`, in capitals and with at least three digits. -/
def register (value : BitVec 16) : String := "0x" ++ (digits value.toNat 3).toUpper

end Rv32.Hex
