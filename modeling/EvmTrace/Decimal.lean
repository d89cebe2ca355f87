import EvmTrace.Bytes

/-!
# Decimal numbers

A natural number in its fewest decimal digits.
-/
namespace EvmTrace.Decimal

def ofNat (n : Nat) : Bytes := (Nat.toDigits 10 n).map Char.toUInt8

def isDigit (b : UInt8) : Bool := 48 ≤ b && b ≤ 57

/-- The value of a decimal digit. -/
def value (b : UInt8) : Nat := b.toNat - 48

end EvmTrace.Decimal
