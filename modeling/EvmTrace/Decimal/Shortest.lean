/-!
# Shortest decimals

The decimal of fewest digits that reads back as a given double, of two such the nearer. A positive
double is `m * 2 ^ q`, and the reals that round to it reach halfway to its neighbours; the ends of
that interval belong to it when `m` is even. For each count of digits, only the two decimals next
to the value have to be tried.
-/
namespace EvmTrace.Decimal

/-- A positive double as an integer times a power of two. -/
structure Binary where
  m : Nat
  q : Int
  /-- The neighbour below is only half as far as the one above. -/
  closeBelow : Bool
  deriving DecidableEq, Repr

/-- The digits as a number and the power of ten of the last one. -/
structure Shortest where
  digits : Nat
  exponent : Int
  deriving DecidableEq, Repr

/-- The parts of a finite double's bit pattern, its sign left out. -/
def Binary.ofBits (bits : UInt64) : Binary :=
  let implicit := Nat.pow 2 52
  let fraction : Nat := bits.toNat % implicit
  let biased : Nat := bits.toNat / implicit % Nat.pow 2 11
  if biased = 0 then ⟨fraction, -1074, false⟩
  else ⟨fraction + implicit, (biased : Int) - 1075, fraction = 0 && 1 < biased⟩

/-- A fraction of natural numbers. -/
structure Ratio where
  num : Nat
  den : Nat
  deriving DecidableEq, Repr

/-- `n * 2 ^ q * 10 ^ e` -/
def Ratio.scaled (n : Nat) (q e : Int) : Ratio :=
  ⟨n * Nat.pow 2 q.toNat * Nat.pow 10 e.toNat, Nat.pow 2 (-q).toNat * Nat.pow 10 (-e).toNat⟩

/-- Whether the natural number `d` lies among the reals that round to `x`, all counted in units of
`10 ^ e`. -/
def roundsTo (x : Binary) (e : Int) (d : Nat) : Bool :=
  let low := Ratio.scaled (4 * x.m - if x.closeBelow then 1 else 2) (x.q - 2) (-e)
  let high := Ratio.scaled (4 * x.m + 2) (x.q - 2) (-e)
  let inside (a b : Nat) : Bool := if x.m % 2 = 0 then a ≤ b else a < b
  inside low.num (d * low.den) && inside (d * high.den) high.num

/-- The natural number next to `x` in units of `10 ^ e` that rounds to `x`, if one does; of two the
nearer, and the even one of two equally near. -/
def nearest? (x : Binary) (e : Int) : Option Nat :=
  let r := Ratio.scaled x.m x.q (-e)
  let d := r.num / r.den
  match roundsTo x e d, roundsTo x e (d + 1) with
  | false, false => none
  | true, false => some d
  | false, true => some (d + 1)
  | true, true =>
    let twice := 2 * (r.num % r.den)
    if twice < r.den then some d
    else if r.den < twice then some (d + 1)
    else if d % 2 = 0 then some d else some (d + 1)

/-- The number of decimal digits. -/
def digitCount (n : Nat) : Nat := (Nat.toDigits 10 n).length

/-- An exponent `k` with `10 ^ (k - 1) ≤ x < 10 ^ k`, for a positive `x`. -/
def magnitude (x : Binary) : Int :=
  let whole := Ratio.scaled x.m x.q 400
  digitCount (whole.num / whole.den) - 400

/-- Tries the counts of digits from `count` up to 17. -/
def shortestFrom (x : Binary) : Nat → Nat → Shortest
  | 0, count => ⟨(nearest? x (magnitude x - count)).getD 0, magnitude x - count⟩
  | more + 1, count =>
    match nearest? x (magnitude x - count) with
    | some d => ⟨d, magnitude x - count⟩
    | none => shortestFrom x more (count + 1)

/-- Moves zeros from the end of the digits into the exponent. -/
def Shortest.trim : Nat → Shortest → Shortest
  | 0, s => s
  | more + 1, s =>
    if s.digits ≠ 0 ∧ s.digits % 10 = 0 then trim more ⟨s.digits / 10, s.exponent + 1⟩
    else s

/-- The shortest decimal of a positive double. -/
def shortest (x : Binary) : Shortest := (shortestFrom x 16 1).trim 20

end EvmTrace.Decimal
