import EvmTrace.Bytes

/-!
# Hexadecimal

Two lowercase digits a byte. The blockwise writer passes its input through a buffer of fixed size;
`encodeBlocks` and `encode` are the two sides of the fact that the buffer cannot be seen.
-/
namespace EvmTrace.Hex

/-- The digit of a number below 16. -/
def digit (n : Nat) : UInt8 := if n < 10 then UInt8.ofNat (48 + n) else UInt8.ofNat (87 + n)

def pair (b : UInt8) : Bytes := [digit (b.toNat / 16), digit (b.toNat % 16)]

def encode (b : Bytes) : Bytes := b.flatMap pair

/-- The input cut into blocks of `size + 1` bytes, the last one possibly shorter. -/
def blocks (size : Nat) (b : Bytes) : List Bytes :=
  match b with
  | [] => []
  | x :: rest => (x :: rest.take size) :: blocks size (rest.drop size)
termination_by b.length

/-- Bytes that pass through the buffer at a time. -/
def blockSize : Nat := 64

/-- Puts digits over the beginning of a buffer, as far as it has room. What was behind them in the
buffer stays there. -/
def overwrite (buffer digits : Bytes) : Bytes :=
  digits.take buffer.length ++ buffer.drop digits.length

/-- Passes blocks through a buffer. What comes out for a block is the part of the buffer that its
digits take. -/
def passBlocks (buffer : Bytes) : List Bytes → List Bytes
  | [] => []
  | block :: rest =>
    let filled := overwrite buffer (encode block)
    filled.take (2 * block.length) :: passBlocks filled rest

/-- A buffer for the digits of one block. -/
def newBuffer : Bytes := List.replicate (2 * blockSize) 0

/-- The digits of each block, in order. All blocks pass through the same buffer. -/
def encodedBlocks (b : Bytes) : List Bytes := passBlocks newBuffer (blocks (blockSize - 1) b)

def encodeBlocks (b : Bytes) : Bytes := (encodedBlocks b).flatten

/-- The value of a digit, in either letter case. -/
def value? (c : UInt8) : Option Nat :=
  if 48 ≤ c ∧ c ≤ 57 then some (c.toNat - 48)
  else if 97 ≤ c ∧ c ≤ 102 then some (c.toNat - 87)
  else if 65 ≤ c ∧ c ≤ 70 then some (c.toNat - 55)
  else none

def decode? : Bytes → Option Bytes
  | [] => some []
  | [_] => none
  | high :: low :: rest => do
    let h ← value? high
    let l ← value? low
    let bytes ← decode? rest
    return UInt8.ofNat (16 * h + l) :: bytes

/-- A number in its fewest digits, `0` for zero. -/
def ofNat (n : Nat) : Bytes := (Nat.toDigits 16 n).map Char.toUInt8

/-- The number behind `0x`, as JSON payloads give it. -/
def quantity (n : Nat) : Bytes := Bytes.ofText "0x" ++ ofNat n

/-- The bytes behind `0x`. -/
def prefixed (b : Bytes) : Bytes := Bytes.ofText "0x" ++ encode b

/-- A digit string read as a number; the empty string is zero. -/
def toNat? (b : Bytes) : Option Nat :=
  b.foldlM (fun n c => (value? c).map (n * 16 + ·)) 0

theorem encode_append (a b : Bytes) : encode (a ++ b) = encode a ++ encode b := by
  simp [encode]

theorem length_encode (b : Bytes) : (encode b).length = 2 * b.length := by
  induction b with
  | nil => rfl
  | cons x rest ih =>
    simp only [encode, List.flatMap_cons, List.length_append, List.length_cons] at ih ⊢
    rw [ih]
    simp [pair]
    omega

end EvmTrace.Hex
