import EvmTrace.Decimal
import EvmTrace.Decimal.Shortest
import EvmTrace.Hex
import EvmTrace.Json.Basic

/-!
# JSON text

A value is written without any blank. Quotes, backslashes and control bytes of a text are escaped;
all other bytes stand for themselves, so a text of any script stays readable.
-/
namespace EvmTrace.Json

/-- The escape of a byte inside a text. -/
def escapeByte (b : UInt8) : Bytes :=
  if b = 34 then [92, 34]
  else if b = 92 then [92, 92]
  else if b = 8 then [92, 98]
  else if b = 9 then [92, 116]
  else if b = 10 then [92, 110]
  else if b = 12 then [92, 102]
  else if b = 13 then [92, 114]
  else if b < 32 then Bytes.ofText "\\u00" ++ Hex.pair b
  else [b]

def renderText (s : String) : Bytes := 34 :: (Bytes.ofText s).flatMap escapeByte ++ [34]

/-- Where a double's text changes from positional to scientific notation. -/
structure RealFormat where
  /-- The decimal point lies at most so many places behind the first digit. -/
  most : Int
  /-- Fewer than so many zeros stand between the decimal point and the first digit. -/
  least : Int

/-- Doubles below `10 ^ 16` and from `10 ^ -5` on are written out, all others with an exponent that
always shows its sign. -/
def realFormat : RealFormat := ⟨16, 5⟩

/-- The text of a positive decimal; a number written out always shows a decimal point. -/
def renderShortest (f : RealFormat) (s : Decimal.Shortest) : Bytes :=
  let digits := Decimal.ofNat s.digits
  let point := digits.length + s.exponent
  let zero : UInt8 := 48
  let dot : UInt8 := 46
  if 0 ≤ s.exponent ∧ point ≤ f.most then
    digits ++ List.replicate s.exponent.toNat zero ++ [dot, zero]
  else if 0 < point ∧ point ≤ f.most then
    digits.take point.toNat ++ dot :: digits.drop point.toNat
  else if -f.least < point ∧ point ≤ 0 then
    zero :: dot :: List.replicate (-point).toNat zero ++ digits
  else
    let power := point - 1
    let sign : UInt8 := if power < 0 then 45 else 43
    let fraction := if digits.length = 1 then [] else dot :: digits.drop 1
    digits.take 1 ++ fraction ++ 101 :: sign :: Decimal.ofNat power.natAbs

/-- What is not a finite number has no text of its own. -/
def renderReal (x : Float) : Bytes :=
  let bits := x.toBits
  if bits.toNat / Nat.pow 2 52 % Nat.pow 2 11 = 2047 then Bytes.ofText "null"
  else
    let sign := if bits.toNat / Nat.pow 2 63 = 1 then [45] else []
    let b := Decimal.Binary.ofBits bits
    sign ++ if b.m = 0 then Bytes.ofText "0.0"
      else renderShortest realFormat (Decimal.shortest b)

def renderInteger (n : Int) : Bytes :=
  if n < 0 then 45 :: Decimal.ofNat n.natAbs else Decimal.ofNat n.natAbs

def Number.render : Number → Bytes
  | .integer n => renderInteger n
  | .real x => renderReal x

mutual

def render : Json → Bytes
  | null => Bytes.ofText "null"
  | bool true => Bytes.ofText "true"
  | bool false => Bytes.ofText "false"
  | number n => n.render
  | text s => renderText s
  | array items => 91 :: renderItems items ++ [93]
  | object members => 123 :: renderMembers members ++ [125]

def renderItems : List Json → Bytes
  | [] => []
  | [item] => render item
  | item :: rest => render item ++ 44 :: renderItems rest

def renderMembers : List (String × Json) → Bytes
  | [] => []
  | [(key, value)] => renderText key ++ 58 :: render value
  | (key, value) :: rest => renderText key ++ 58 :: render value ++ 44 :: renderMembers rest

end

end EvmTrace.Json
