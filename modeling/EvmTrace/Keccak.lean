import EvmTrace.Bytes

/-!
# Keccak-256

The sponge over 25 lanes of 64 bits with a rate of 136 bytes. A lane is addressed by its column
`x` and row `y` as `x + 5 * y`.
-/
namespace EvmTrace.Keccak

abbrev Lanes := Vector UInt64 25

def Lanes.lane (s : Lanes) (i : Nat) : UInt64 := s.get (Fin.ofNat 25 i)

/-- How far the lane is rotated to the left. -/
def offsets : List Nat :=
  [0, 1, 62, 28, 27, 36, 44, 6, 55, 20, 3, 10, 43, 25, 39, 41, 45, 15, 21, 8, 18, 2, 61, 56, 14]

def roundConstants : List UInt64 :=
  [0x0000000000000001, 0x0000000000008082, 0x800000000000808a, 0x8000000080008000,
   0x000000000000808b, 0x0000000080000001, 0x8000000080008081, 0x8000000000008009,
   0x000000000000008a, 0x0000000000000088, 0x0000000080008009, 0x000000008000000a,
   0x000000008000808b, 0x800000000000008b, 0x8000000000008089, 0x8000000000008003,
   0x8000000000008002, 0x8000000000000080, 0x000000000000800a, 0x800000008000000a,
   0x8000000080008081, 0x8000000000008080, 0x0000000080000001, 0x8000000080008008]

def rotateLeft (w : UInt64) (n : Nat) : UInt64 :=
  if n = 0 then w else (w <<< UInt64.ofNat n) ||| (w >>> UInt64.ofNat (64 - n))

/-- Parity of a column. -/
def parity (s : Lanes) (x : Nat) : UInt64 :=
  s.lane (x % 5) ^^^ s.lane (x % 5 + 5) ^^^ s.lane (x % 5 + 10) ^^^ s.lane (x % 5 + 15) ^^^
    s.lane (x % 5 + 20)

/-- Every lane takes the parities of the column before and of the rotated column after. -/
def theta (s : Lanes) : Lanes :=
  let parities : Vector UInt64 5 := Vector.ofFn fun x => parity s x
  let column (x : Nat) : UInt64 := parities.get (Fin.ofNat 5 x)
  Vector.ofFn fun i => s.lane i ^^^ column (i + 4) ^^^ rotateLeft (column (i + 1)) 1

/-- Lane `(x, y)` is the rotated lane `(x + 3y, x)`. -/
def rhoPi (s : Lanes) : Lanes :=
  Vector.ofFn fun i =>
    let source := (i % 5 + 3 * (i / 5)) % 5 + 5 * (i % 5)
    rotateLeft (s.lane source) (offsets.getD source 0)

/-- Along a row, a lane flips where the next one is clear and the one after is set. -/
def chi (s : Lanes) : Lanes :=
  Vector.ofFn fun i =>
    let row := 5 * (i.val / 5)
    s.lane i ^^^ (~~~ s.lane (row + (i + 1) % 5) &&& s.lane (row + (i + 2) % 5))

def round (s : Lanes) (constant : UInt64) : Lanes :=
  let t := chi (rhoPi (theta s))
  t.set 0 (t.lane 0 ^^^ constant)

def permute (s : Lanes) : Lanes := roundConstants.foldl round s

/-- Bytes taken in between two permutations. -/
def rate : Nat := 136

/-- Eight bytes, least significant first. -/
def loadLane (b : Bytes) : UInt64 := b.take 8 |>.foldr (fun x w => (w <<< 8) ||| x.toUInt64) 0

def absorb (s : Lanes) (block : Bytes) : Lanes :=
  permute (Vector.ofFn fun i =>
    if i.val < rate / 8 then s.lane i ^^^ loadLane (block.drop (8 * i)) else s.lane i)

/-- The last block: the rest of the message, a one bit, zeros, and a one bit at the end. -/
def lastBlock (rest : Bytes) : Bytes :=
  if rest.length + 1 = rate then rest ++ [0x81]
  else rest ++ [0x01] ++ List.replicate (rate - rest.length - 2) 0 ++ [0x80]

/-- Absorbs the message block by block. -/
def sponge (s : Lanes) (message : Bytes) : Lanes :=
  if rate ≤ message.length then sponge (absorb s (message.take rate)) (message.drop rate)
  else absorb s (lastBlock message)
termination_by message.length
decreasing_by simp only [List.length_drop, rate] at *; omega

def storeLane (w : UInt64) : Bytes :=
  (List.range 8).map fun i => (w >>> UInt64.ofNat (8 * i)).toUInt8

def digest (message : Bytes) : Bytes :=
  let s := sponge (Vector.replicate 25 0) message
  (List.range 4).flatMap fun i => storeLane (s.lane i)

end EvmTrace.Keccak
