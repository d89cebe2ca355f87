import EvmTrace.Hex
import EvmTrace.Keccak

/-!
# Checksummed addresses

The letter case of an address's hex digits carries a checksum: a letter is a capital exactly where
the digest of the lowercase digits has a digit of at least eight.
-/
namespace EvmTrace.Address

/-- A lowercase hex letter as a capital, any other byte unchanged. -/
def capital (c : UInt8) : UInt8 := if 97 ≤ c ∧ c ≤ 102 then c - 32 else c

/-- The digits of a byte, most significant first. -/
def nibbles (b : UInt8) : List Nat := [b.toNat / 16, b.toNat % 16]

def checksummed (a : Address) : Bytes :=
  let digits := Hex.encode a.toList
  Bytes.ofText "0x" ++ List.zipWith (fun c n => if 8 ≤ n then capital c else c) digits
    ((Keccak.digest digits).flatMap nibbles)

end EvmTrace.Address
