/-!
# Byte strings

Everything a recorder writes is a string of bytes. Identifiers of fixed width are vectors of
bytes, text is its UTF-8 encoding, and a number is read big-endian.
-/
namespace EvmTrace

abbrev Bytes := List UInt8

/-- An account address. -/
abbrev Address := Vector UInt8 20

/-- A hash, a storage key or a storage value. -/
abbrev Hash := Vector UInt8 32

/-- The filter over the logs of a block or of a receipt. -/
abbrev Bloom := Vector UInt8 256

namespace Bytes

def ofText (s : String) : Bytes := s.toUTF8.data.toList

/-- The text that the bytes encode, if they are well-formed UTF-8. -/
def text? (b : Bytes) : Option String := String.fromUTF8? ⟨b.toArray⟩

/-- The text of bytes that are all below 128, one character a byte. -/
def ascii (b : Bytes) : String := String.ofList (b.map fun x => Char.ofNat x.toNat)

/-- The number that the bytes denote, most significant byte first. -/
def toNat (b : Bytes) : Nat := b.foldl (fun n x => n * 256 + x.toNat) 0

/-- The last `count` base-256 digits of a number, most significant first. -/
def bigEndian : Nat → Nat → Bytes
  | 0, _ => []
  | count + 1, n => bigEndian count (n / 256) ++ [UInt8.ofNat n]

/-- The bytes from the first one that is not zero on. -/
def trimZeros (b : Bytes) : Bytes := b.dropWhile (· == 0)

theorem text?_ofText (s : String) : text? (ofText s) = some s := by
  simp only [text?, ofText, Array.toArray_toList, String.toUTF8_eq_toByteArray,
    String.fromUTF8?, dif_pos s.isValidUTF8]
  rfl

theorem length_bigEndian (count n : Nat) : (bigEndian count n).length = count := by
  induction count generalizing n with
  | zero => rfl
  | succ count ih => simp [bigEndian, ih]

theorem trimZeros_cons_zero (b : Bytes) : trimZeros (0 :: b) = trimZeros b := by
  simp [trimZeros]

end Bytes
end EvmTrace
