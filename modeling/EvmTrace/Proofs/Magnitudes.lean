import EvmTrace.Proofs.HexBlocks
import EvmTrace.Proofs.AccessLists
import EvmTrace.Proofs.PayloadReaders
import Mathlib.Order.Bounds.Defs

/-!
# Numbers in as few bytes as they take

Big-endian bytes without a zero in front are determined by their value, and no shorter bytes hold
it. A word is written as those bytes of it, two digits for each of them, so the text is the shortest
one of whole bytes that is read as the word.
-/
namespace EvmTrace

namespace Bytes

/-- Has no zero byte in front. -/
def IsMinimal (b : Bytes) : Prop := b.head? ≠ some 0

variable {b s : Bytes} {x : UInt8} {k : Nat}

theorem toNat_cons (x : UInt8) (b : Bytes) :
    toNat (x :: b) = x.toNat * Nat.pow 256 b.length + toNat b := by
  induction b using List.reverseRecOn with
  | nil => simp [toNat]
  | append_singleton b y ih =>
    have hpow : Nat.pow 256 (b.length + 1) = 256 * Nat.pow 256 b.length := Nat.mul_comm ..
    rw [← List.cons_append, toNat_append_singleton, toNat_append_singleton, ih,
      List.length_append, List.length_singleton, hpow]
    ring

theorem pow_le_toNat (hx : x ≠ 0) (b : Bytes) : Nat.pow 256 b.length ≤ toNat (x :: b) := by
  have hpos : 0 < x.toNat := Nat.pos_of_ne_zero fun h => hx (UInt8.toNat_inj.mp h)
  rw [toNat_cons]
  exact (Nat.le_mul_of_pos_left _ hpos).trans (Nat.le_add_right _ _)

/-- Without a zero in front, no byte is spared. -/
theorem IsMinimal.length_le (hb : b.IsMinimal) (h : toNat b < Nat.pow 256 k) : b.length ≤ k := by
  cases b with
  | nil => exact Nat.zero_le k
  | cons x rest =>
    have hx : x ≠ 0 := by simpa [IsMinimal] using hb
    have hlt : Nat.pow 256 rest.length < Nat.pow 256 k := (pow_le_toNat hx rest).trans_lt h
    exact (Nat.pow_lt_pow_iff_right (by decide)).mp hlt

theorem IsMinimal.isLeast (hb : b.IsMinimal) :
    IsLeast {k | toNat b < Nat.pow 256 k} b.length :=
  ⟨toNat_lt b, fun _ h => hb.length_le h⟩

theorem IsMinimal.length_eq (hb : b.IsMinimal) (hs : s.IsMinimal) (h : toNat b = toNat s) :
    b.length = s.length := by
  refine Nat.le_antisymm (hb.length_le ?_) (hs.length_le ?_)
  · rw [h]
    exact toNat_lt s
  · rw [← h]
    exact toNat_lt b

theorem isMinimal_trimZeros (b : Bytes) : (trimZeros b).IsMinimal := by
  intro hzero
  have hhead := List.head?_dropWhile_not (· == 0) b
  rw [trimZeros] at hzero
  rw [hzero] at hhead
  simp at hhead

theorem trimZeros_suffix (b : Bytes) : trimZeros b <:+ b := List.dropWhile_suffix _

/-- There is one end of some bytes that has their value and no zero in front. -/
theorem eq_trimZeros_iff (b s : Bytes) :
    s <:+ b ∧ toNat s = toNat b ∧ s.IsMinimal ↔ s = trimZeros b := by
  constructor
  · rintro ⟨hsuffix, hvalue, hminimal⟩
    have hsame : toNat s = toNat (trimZeros b) := by rw [hvalue, toNat_trimZeros]
    have hlength := hminimal.length_eq (isMinimal_trimZeros b) hsame
    have hends : s <:+ trimZeros b :=
      List.suffix_of_suffix_length_le hsuffix (trimZeros_suffix b) (Nat.le_of_eq hlength)
    exact hends.eq_of_length hlength
  · rintro rfl
    exact ⟨trimZeros_suffix b, toNat_trimZeros b, isMinimal_trimZeros b⟩

end Bytes

namespace Hex

theorem toNat?_append_pair {b : Bytes} {n : Nat} (hb : toNat? b = some n) (x : UInt8) :
    toNat? (b ++ pair x) = some (n * 256 + x.toNat) := by
  have hx : x.toNat < 256 := x.toNat_lt
  have hhigh := toNat?_append_singleton hb (value?_digit (x.toNat / 16) (by omega))
  have hlow := toNat?_append_singleton hhigh (value?_digit (x.toNat % 16) (by omega))
  have hvalue : (n * 16 + x.toNat / 16) * 16 + x.toNat % 16 = n * 256 + x.toNat := by omega
  rw [List.append_assoc, hvalue] at hlow
  exact hlow

/-- The digits of big-endian bytes are those of their value. -/
theorem toNat?_encode (b : Bytes) : toNat? (encode b) = some (Bytes.toNat b) := by
  induction b using List.reverseRecOn with
  | nil => rfl
  | append_singleton b x ih =>
    have hsnoc : encode (b ++ [x]) = encode b ++ pair x := by simp [encode]
    rw [hsnoc, toNat?_append_pair ih, Bytes.toNat_append_singleton]

theorem digit_eq_zero : ∀ n < 16, digit n = 48 → n = 0 := by decide

theorem head?_eq_zero_of_prefix {b : Bytes} (h : Bytes.ofText "00" <+: encode b) :
    b.head? = some 0 := by
  have htext : Bytes.ofText "00" = [48, 48] := by decide
  cases b with
  | nil =>
    rw [htext] at h
    simp [encode] at h
  | cons x rest =>
    have hx : x.toNat < 256 := x.toNat_lt
    have hcons : encode (x :: rest) = pair x ++ encode rest := rfl
    rw [htext, hcons] at h
    simp only [pair, List.cons_append, List.nil_append, List.cons_prefix_cons] at h
    have hhigh := digit_eq_zero (x.toNat / 16) (by omega) h.1.symm
    have hlow := digit_eq_zero (x.toNat % 16) (by omega) h.2.1.symm
    have hzero : x.toNat = (0 : UInt8).toNat := by
      simp only [UInt8.toNat_zero]
      omega
    rw [UInt8.toNat_inj.mp hzero, List.head?_cons]

end Hex

namespace Field

/-- Reads hexadecimal digits as a number, and the sentinel as zero. -/
def readNumber? (b : Bytes) : Option Nat := if b = sentinel then some 0 else Hex.toNat? b

theorem encode_word_zero : (word (some 0)).encode = sentinel := (encodeWord_eq_sentinel 0).mpr rfl

variable {w : Word}

/-- Any word but zero is written as its minimal bytes. -/
theorem encode_word_of_ne_zero (hw : w ≠ 0) :
    (word (some w)).encode = Hex.encode (Bytes.trimZeros w.toBytes) := by
  have hbytes : Bytes.trimZeros w.toBytes ≠ [] := by
    intro hnil
    have hvalue := w.toNat_trimZeros
    rw [hnil] at hvalue
    exact hw (BitVec.eq_of_toNat_eq hvalue.symm)
  rw [encode, encodeWord, encodeBytes_of_ne_nil hbytes]

theorem readNumber?_encode_word (w : Option Word) :
    readNumber? (word w).encode = some (w.getD 0).toNat := by
  cases w with
  | none => rfl
  | some w =>
    by_cases hw : w = 0
    · subst hw
      rw [encode_word_zero]
      rfl
    · rw [encode_word_of_ne_zero hw, readNumber?, if_neg (hex_ne_sentinel _), Hex.toNat?_encode,
        w.toNat_trimZeros, Option.getD_some]

theorem encode_word_eq_sentinel_iff (w : Option Word) :
    (word w).encode = sentinel ↔ w = none ∨ w = some 0 := by
  cases w with
  | none => simp [encode]
  | some w =>
    rw [encode, encodeWord_eq_sentinel]
    simp

/-- What is read of a word is its value, and zero and what is absent are written as the sentinel.
Any other word is written in lowercase digits, two for each byte, in as few bytes as hold its value,
and so without a zero byte in front. The bytes left of big-endian bytes are the one end of them that
has their value and no zero in front. -/
theorem words_take_fewest_bytes :
    (∀ w : Option Word,
      readNumber? (word w).encode = some (w.getD 0).toNat ∧
        ((word w).encode = sentinel ↔ w = none ∨ w = some 0)) ∧
      (∀ w : Word, w = 0 ∨
        (∀ c ∈ (word (some w)).encode, c ∈ Hex.alphabet) ∧
          (∃ k, (word (some w)).encode.length = 2 * k ∧
            IsLeast {k | w.toNat < Nat.pow 256 k} k) ∧
          ¬ Bytes.ofText "00" <+: (word (some w)).encode) ∧
      ∀ b s : Bytes,
        s <:+ b ∧ Bytes.toNat s = Bytes.toNat b ∧ s.head? ≠ some 0 ↔ s = Bytes.trimZeros b := by
  refine ⟨fun w => ⟨readNumber?_encode_word w, encode_word_eq_sentinel_iff w⟩, fun w => ?_,
    Bytes.eq_trimZeros_iff⟩
  by_cases hw : w = 0
  · exact .inl hw
  · right
    have hminimal := Bytes.isMinimal_trimZeros w.toBytes
    have hleast := hminimal.isLeast
    rw [w.toNat_trimZeros] at hleast
    rw [encode_word_of_ne_zero hw]
    exact ⟨fun _ => Hex.mem_alphabet_of_mem_encode, ⟨_, Hex.length_encode _, hleast⟩,
      fun hzero => hminimal (Hex.head?_eq_zero_of_prefix hzero)⟩

end Field
end EvmTrace
