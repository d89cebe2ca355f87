import EvmTrace.Bytes

/-!
# Machine words

A word is a 256-bit unsigned integer. Fees are added with a ceiling at the greatest word.
-/
namespace EvmTrace

abbrev Word := BitVec 256

namespace Word

def max : Word := BitVec.allOnes 256

/-- The sum, or the greatest word where the sum is not a word. -/
def saturatingAdd (a b : Word) : Word := BitVec.ofNat 256 (min (a.toNat + b.toNat) max.toNat)

/-- All 32 bytes, most significant first. -/
def toBytes (w : Word) : Bytes := Bytes.bigEndian 32 w.toNat

theorem saturatingAdd_toNat (a b : Word) :
    (saturatingAdd a b).toNat = min (a.toNat + b.toNat) max.toNat := by
  have hmax := max.isLt
  rw [saturatingAdd, BitVec.toNat_ofNat]
  exact Nat.mod_eq_of_lt (by omega)

theorem length_toBytes (w : Word) : w.toBytes.length = 32 := Bytes.length_bigEndian ..

end Word
end EvmTrace
