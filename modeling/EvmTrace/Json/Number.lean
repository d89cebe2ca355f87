import EvmTrace.Decimal
import EvmTrace.Json.Basic
import EvmTrace.Json.Error

/-!
# JSON numbers

A literal is split into its digit strings first; what it denotes is a function of those. A literal
without fraction and exponent denotes an integer as long as it fits 64 bits. Any other denotes a
double: the digits are read into 64 bits, digits past that only count, and the result is scaled by
one power of ten, so the last bit of a long literal may differ from the nearest double.
-/
namespace EvmTrace.Json

/-- The digit strings of a number without its sign. -/
structure Literal where
  whole : Bytes
  fraction : Option Bytes
  /-- Whether the exponent is negative, and its digits. -/
  exponent : Option (Bool × Bytes)
  deriving DecidableEq, Repr

namespace Literal

/-- The digits at the front, of which there must be one. -/
def readDigits (b : Bytes) : Except ReadError (Bytes × Bytes) :=
  match b.takeWhile Decimal.isDigit with
  | [] => .error (if b.isEmpty then .unfinished else .malformed)
  | digits => .ok (digits, b.dropWhile Decimal.isDigit)

def readFraction : Bytes → Except ReadError (Option Bytes × Bytes)
  | [] => .ok (none, [])
  | c :: rest => if c = 46 then do
      let (digits, rest) ← readDigits rest
      return (some digits, rest)
    else .ok (none, c :: rest)

/-- The sign of an exponent. -/
def readSign : Bytes → Bool × Bytes
  | [] => (false, [])
  | c :: rest =>
    if c = 45 then (true, rest)
    else if c = 43 then (false, rest)
    else (false, c :: rest)

def readExponent : Bytes → Except ReadError (Option (Bool × Bytes) × Bytes)
  | [] => .ok (none, [])
  | c :: rest => if c = 101 ∨ c = 69 then do
      let (negative, rest) := readSign rest
      let (digits, rest) ← readDigits rest
      return (some (negative, digits), rest)
    else .ok (none, c :: rest)

/-- No digit follows a leading zero. -/
def read (b : Bytes) : Except ReadError (Literal × Bytes) := do
  let (whole, rest) ← readDigits b
  if whole.head? = some 48 ∧ 1 < whole.length then throw .malformed
  let (fraction, rest) ← readFraction rest
  let (exponent, rest) ← readExponent rest
  return (⟨whole, fraction, exponent⟩, rest)

/-- Goes on from `n` with more digits as long as the number fits 64 bits, and counts those used. -/
def keep (n : Nat) : Bytes → Nat × Nat
  | [] => (n, 0)
  | d :: rest =>
    let m := n * 10 + Decimal.value d
    if m < UInt64.size then
      let (kept, count) := keep m rest
      (kept, count + 1)
    else (n, 0)

def natOfDigits (digits : Bytes) : Nat := digits.foldl (fun n d => n * 10 + Decimal.value d) 0

/-- The number is the significand times this power of ten. -/
structure Scaled where
  significand : Nat
  exponent : Int
  deriving DecidableEq, Repr

def scaled (l : Literal) : Scaled :=
  let (whole, used) := keep 0 l.whole
  let (significand, after) := keep whole (l.fraction.getD [])
  let exponent := match l.exponent with
    | none => 0
    | some (negative, digits) =>
      if negative then -(natOfDigits digits : Int) else natOfDigits digits
  ⟨significand, exponent + (l.whole.length - used : Nat) - after⟩

/-- A power of ten as a double, for exponents up to 308. -/
def powerOfTen (k : Nat) : Float := Float.ofScientific 1 false k

/-- Scales a double by a power of ten. No double is left after three divisions by the greatest
power, so the count of steps never decides. -/
def scale : Nat → Float → Int → Except ReadError Float
  | 0, x, _ => .ok x
  | steps + 1, x, e =>
    if e.natAbs ≤ 308 then
      if e < 0 then .ok (x / powerOfTen e.natAbs)
      else
        let y := x * powerOfTen e.natAbs
        if y.isInf then .error .malformed else .ok y
    else if x == 0 then .ok x
    else if 0 < e then .error .malformed
    else scale steps (x / powerOfTen 308) (e + 308)

/-- A negative zero is a double, since no integer is. -/
def denote (negative : Bool) (l : Literal) : Except ReadError Number := do
  let s := l.scaled
  let x := (UInt64.ofNat s.significand).toFloat
  if l.fraction.isNone ∧ l.exponent.isNone ∧ s.exponent = 0 then
    if ¬ negative then return .integer s.significand
    else if 1 ≤ s.significand ∧ s.significand ≤ UInt64.size / 2 then
      return .integer (-s.significand)
    else return .real (-x)
  else
    let y ← scale 4 x s.exponent
    return .real (if negative then -y else y)

end Literal

/-- Reads a number behind its sign. -/
def readNumber (negative : Bool) (b : Bytes) : Except ReadError (Number × Bytes) := do
  let (l, rest) ← Literal.read b
  let n ← l.denote negative
  return (n, rest)

/-- Passes over a number behind its sign; here a number that ends early is malformed too. -/
def skipNumber (b : Bytes) : Except ReadError Bytes :=
  match Literal.read b with
  | .ok (_, rest) => .ok rest
  | .error _ => .error .malformed

end EvmTrace.Json
