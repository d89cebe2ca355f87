import EvmTrace.Decimal
import EvmTrace.Hex
import EvmTrace.Word
import Mathlib.Tactic.Common

/-!
# Reading numerals back

What is written in decimal, in hexadecimal or big-endian determines the number or the bytes that
were written, and is made of digits only.
-/
namespace EvmTrace

/-! ## Hexadecimal -/

namespace Hex

variable {b rest : Bytes} {c : UInt8}

theorem value?_digit : ∀ n < 16, value? (digit n) = some n := by decide

/-- Digits stay clear of the newline, the space, the comma and the sentinel. -/
theorem digit_clear : ∀ n < 16, digit n ∉ ([10, 32, 44, 46] : Bytes) := by decide

theorem decode?_pair (x : UInt8) (rest : Bytes) :
    decode? (pair x ++ rest) = (decode? rest).map (x :: ·) := by
  have hx : x.toNat < 256 := x.toNat_lt
  have hhigh := value?_digit (x.toNat / 16) (by omega)
  have hlow := value?_digit (x.toNat % 16) (by omega)
  have hbyte : UInt8.ofNat (16 * (x.toNat / 16) + x.toNat % 16) = x := by
    rw [show 16 * (x.toNat / 16) + x.toNat % 16 = x.toNat by omega, UInt8.ofNat_toNat]
  simp only [pair, List.cons_append, List.nil_append, decode?, hhigh, hlow, Option.bind_eq_bind,
    Option.bind_some, hbyte]
  cases decode? rest <;> rfl

theorem decode?_encode (b : Bytes) : decode? (encode b) = some b := by
  induction b with
  | nil => rfl
  | cons x rest ih =>
    have hcons : encode (x :: rest) = pair x ++ encode rest := rfl
    rw [hcons, decode?_pair, ih]
    rfl

theorem clear_of_mem_encode (h : c ∈ encode b) : c ∉ ([10, 32, 44, 46] : Bytes) := by
  obtain ⟨x, -, hc⟩ := List.mem_flatMap.mp h
  have hx : x.toNat < 256 := x.toNat_lt
  simp only [pair, List.mem_cons, List.not_mem_nil, or_false] at hc
  rcases hc with rfl | rfl
  · exact digit_clear _ (by omega)
  · exact digit_clear _ (by omega)

theorem encode_ne_nil (h : b ≠ []) : encode b ≠ [] := by
  obtain ⟨x, rest, rfl⟩ := List.exists_cons_of_ne_nil h
  intro hnil
  have hlength := length_encode (x :: rest)
  rw [hnil] at hlength
  simp at hlength

/-- The size of the blocks cannot be seen. -/
theorem flatten_encode_blocks (size : Nat) (b : Bytes) :
    ((blocks size b).map encode).flatten = encode b := by
  fun_induction blocks size b with
  | case1 => rfl
  | case2 x rest ih =>
    rw [List.map_cons, List.flatten_cons, ih, ← encode_append]
    simp

theorem length_overwrite {buffer digits : Bytes} (h : digits.length ≤ buffer.length) :
    (overwrite buffer digits).length = buffer.length := by
  rw [overwrite, List.length_append, List.length_take, List.length_drop]
  omega

theorem take_overwrite {buffer digits : Bytes} (h : digits.length ≤ buffer.length) :
    (overwrite buffer digits).take digits.length = digits := by
  rw [overwrite, List.take_of_length_le h, List.take_left]

theorem length_le_of_mem_blocks {size : Nat} {block : Bytes} (h : block ∈ blocks size b) :
    block.length ≤ size + 1 := by
  fun_induction blocks size b with
  | case1 => simp at h
  | case2 x rest ih =>
    rcases List.mem_cons.mp h with rfl | hlater
    · rw [List.length_cons, List.length_take]
      omega
    · exact ih hlater

/-- No block finds anything in the buffer but its own digits. -/
theorem passBlocks_eq {buffer : Bytes} {bs : List Bytes}
    (h : ∀ block ∈ bs, 2 * block.length ≤ buffer.length) :
    passBlocks buffer bs = bs.map encode := by
  induction bs generalizing buffer with
  | nil => rfl
  | cons block bs ih =>
    obtain ⟨hblock, hlater⟩ := List.forall_mem_cons.mp h
    have hfits : (encode block).length ≤ buffer.length := by rwa [length_encode]
    have hrest := @ih (overwrite buffer (encode block)) (by rwa [length_overwrite hfits])
    rw [passBlocks, hrest, ← length_encode, take_overwrite hfits, List.map_cons]

theorem fits_of_mem_blocks {block : Bytes} (h : block ∈ blocks (blockSize - 1) b) :
    2 * block.length ≤ newBuffer.length := by
  have hlength : block.length ≤ blockSize := length_le_of_mem_blocks h
  simp only [newBuffer, List.length_replicate]
  omega

theorem encodedBlocks_eq (b : Bytes) :
    encodedBlocks b = (blocks (blockSize - 1) b).map encode :=
  passBlocks_eq fun _ => fits_of_mem_blocks

theorem encodeBlocks_eq (b : Bytes) : encodeBlocks b = encode b := by
  rw [encodeBlocks, encodedBlocks_eq, flatten_encode_blocks]

end Hex

/-! ## Decimal -/

namespace Decimal

/-- Reads a numeral that has a digit and nothing but digits. -/
def toNat? (b : Bytes) : Option Nat :=
  if b ≠ [] ∧ b.all isDigit then some (b.foldl (fun n c => 10 * n + value c) 0) else none

theorem toNat_of_isDigit {c : Char} (h : c.isDigit = true) : c.toUInt8.toNat = c.toNat := by
  have hc : 48 ≤ c.toNat ∧ c.toNat ≤ 57 := Char.isDigit_iff_toNat.mp h
  have hmod : c.toUInt8.toNat = c.toNat % 256 := rfl
  omega

theorem foldl_value {digits : List Char} (h : ∀ c ∈ digits, c.isDigit = true) (n : Nat) :
    (digits.map Char.toUInt8).foldl (fun n c => 10 * n + value c) n =
      Nat.ofDigitChars 10 digits n := by
  induction digits generalizing n with
  | nil => rfl
  | cons c rest ih =>
    have hc : value c.toUInt8 = c.toNat - 48 := by rw [value, toNat_of_isDigit (h c (by simp))]
    rw [List.map_cons, List.foldl_cons, hc, ih fun c' hc' => h c' (by simp [hc'])]
    rfl

theorem isDigit_of_mem_ofNat {n : Nat} {b : UInt8} (h : b ∈ ofNat n) : isDigit b = true := by
  obtain ⟨c, hc, rfl⟩ := List.mem_map.mp h
  have hdigit := Nat.isDigit_of_mem_toDigits (by omega) (by omega) hc
  have hbounds : 48 ≤ c.toNat ∧ c.toNat ≤ 57 := Char.isDigit_iff_toNat.mp hdigit
  have hbyte := toNat_of_isDigit hdigit
  simp only [isDigit, Bool.and_eq_true, decide_eq_true_eq, UInt8.le_iff_toNat_le, hbyte]
  exact hbounds

theorem ofNat_ne_nil (n : Nat) : ofNat n ≠ [] := by
  simp [ofNat, Nat.toDigits_ne_nil]

theorem toNat?_ofNat (n : Nat) : toNat? (ofNat n) = some n := by
  have hall : (ofNat n).all isDigit = true := List.all_eq_true.mpr fun _ => isDigit_of_mem_ofNat
  have hdigits : ∀ c ∈ Nat.toDigits 10 n, c.isDigit = true := fun _ =>
    Nat.isDigit_of_mem_toDigits (by omega) (by omega)
  rw [toNat?, if_pos ⟨ofNat_ne_nil n, hall⟩, ofNat, foldl_value hdigits,
    Nat.ofDigitChars_toDigits (by omega) (by omega)]

end Decimal

/-! ## Big-endian -/

namespace Bytes

theorem toNat_append_singleton (b : Bytes) (x : UInt8) :
    toNat (b ++ [x]) = toNat b * 256 + x.toNat := by
  simp [toNat]

theorem toNat_bigEndian (count n : Nat) : toNat (bigEndian count n) = n % Nat.pow 256 count := by
  induction count generalizing n with
  | zero => simp [bigEndian, toNat, Nat.mod_one]
  | succ count ih =>
    have hlast : (UInt8.ofNat n).toNat = n % 256 := UInt8.toNat_ofNat'
    have hpow : Nat.pow 256 (count + 1) = 256 * Nat.pow 256 count := Nat.mul_comm ..
    rw [bigEndian, toNat_append_singleton, ih, hlast, hpow, Nat.mod_mul]
    omega

theorem toNat_trimZeros (b : Bytes) : toNat (trimZeros b) = toNat b := by
  induction b with
  | nil => rfl
  | cons x rest ih =>
    by_cases hx : x = 0
    · subst hx
      rw [trimZeros_cons_zero, ih]
      simp [toNat]
    · simp [trimZeros, hx]

end Bytes

theorem Word.toNat_trimZeros (w : Word) : Bytes.toNat (Bytes.trimZeros w.toBytes) = w.toNat := by
  rw [Bytes.toNat_trimZeros, toBytes, Bytes.toNat_bigEndian]
  exact Nat.mod_eq_of_lt w.isLt

end EvmTrace
