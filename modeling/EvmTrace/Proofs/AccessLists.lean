import EvmTrace.AccessList
import EvmTrace.Proofs.Numerals
import Mathlib

/-!
# Reading access lists back

An encoded access list has no length in front and no count of its items. The number of keys in each
item says where the next one starts, so the list can be read item by item until no byte is left.
Main statement: every list whose counts fit into their four bytes is read back, and nothing else can
be read.
-/
namespace EvmTrace

namespace Bytes

theorem toNat_lt (b : Bytes) : toNat b < Nat.pow 256 b.length := by
  induction b using List.reverseRecOn with
  | nil => simp [toNat]
  | append_singleton b x ih =>
    have hx : x.toNat < 256 := x.toNat_lt
    have hpow : Nat.pow 256 (b.length + 1) = 256 * Nat.pow 256 b.length := Nat.mul_comm ..
    rw [toNat_append_singleton, List.length_append, List.length_singleton, hpow]
    omega

/-- Bytes are the digits of the number that they denote. -/
theorem bigEndian_toNat (b : Bytes) : bigEndian b.length (toNat b) = b := by
  induction b using List.reverseRecOn with
  | nil => rfl
  | append_singleton b x ih =>
    have hx : x.toNat < 256 := x.toNat_lt
    have hdiv : (toNat b * 256 + x.toNat) / 256 = toNat b := by omega
    have hlast : UInt8.ofNat (toNat b * 256 + x.toNat) = x := by
      apply UInt8.toNat_inj.mp
      rw [UInt8.toNat_ofNat']
      omega
    rw [toNat_append_singleton, List.length_append, List.length_singleton, bigEndian, hdiv, ih,
      hlast]

end Bytes

namespace AccessList

variable {b rest : Bytes} {n : Nat}

/-- Takes a value of fixed width from the front. -/
def takeVector? (n : Nat) (b : Bytes) : Option (Vector UInt8 n × Bytes) :=
  if h : n ≤ b.length then some (⟨(b.take n).toArray, by simp [Nat.min_eq_left h]⟩, b.drop n)
  else none

def takeKeys? : (count : Nat) → Bytes → Option (List Hash × Bytes)
  | 0, b => some ([], b)
  | count + 1, b => do
    let (key, rest) ← takeVector? 32 b
    let (keys, rest) ← takeKeys? count rest
    return (key :: keys, rest)

/-- Takes an item from the front: an address, the number of its keys, and so many keys. -/
def takeItem? (b : Bytes) : Option (AccessItem × Bytes) := do
  let (address, rest) ← takeVector? 20 b
  let (count, rest) ← takeVector? 4 rest
  let (keys, rest) ← takeKeys? (Bytes.toNat count.toList) rest
  return (⟨address, keys⟩, rest)

theorem takeVector?_eq_some {v : Vector UInt8 n} :
    takeVector? n b = some (v, rest) ↔ b = v.toList ++ rest := by
  unfold takeVector?
  constructor
  · intro h
    split at h
    · obtain ⟨rfl, rfl⟩ := Prod.mk.inj (Option.some.inj h)
      simp [Vector.toList]
    · cases h
  · rintro rfl
    have hlength : v.toList.length = n := v.length_toList
    have hle : n ≤ (v.toList ++ rest).length := by
      rw [List.length_append, hlength]
      omega
    have htake : (v.toList ++ rest).take n = v.toList := List.take_left' hlength
    have hdrop : (v.toList ++ rest).drop n = rest := List.drop_left' hlength
    rw [dif_pos hle]
    simp only [htake, hdrop, Option.some.injEq, Prod.mk.injEq, and_true]
    rfl

theorem takeKeys?_eq_some {keys : List Hash} :
    takeKeys? n b = some (keys, rest) ↔
      keys.length = n ∧ b = keys.flatMap Vector.toList ++ rest := by
  induction n generalizing b keys rest with
  | zero =>
    simp only [takeKeys?, Option.some.injEq, Prod.mk.injEq, List.length_eq_zero_iff]
    constructor
    · rintro ⟨rfl, rfl⟩
      exact ⟨rfl, rfl⟩
    · rintro ⟨rfl, rfl⟩
      exact ⟨rfl, rfl⟩
  | succ n ih =>
    simp only [takeKeys?, Option.bind_eq_bind, Option.bind_eq_some_iff, Prod.exists,
      takeVector?_eq_some, ih, Option.pure_def, Option.some.injEq, Prod.mk.injEq]
    constructor
    · rintro ⟨key, _, rfl, keys', _, ⟨hlength, rfl⟩, rfl, rfl⟩
      exact ⟨by simp [hlength], by simp⟩
    · rintro ⟨hlength, rfl⟩
      cases keys with
      | nil => simp at hlength
      | cons key keys' =>
        refine ⟨key, _, ?_, keys', rest, ⟨by simpa using hlength, rfl⟩, rfl, rfl⟩
        simp

theorem takeItem?_eq_some {item : AccessItem} :
    takeItem? b = some (item, rest) ↔ item.keys.length < UInt32.size ∧ b = item.encode ++ rest := by
  simp only [takeItem?, Option.bind_eq_bind, Option.bind_eq_some_iff, Prod.exists,
    takeVector?_eq_some, takeKeys?_eq_some, Option.pure_def, Option.some.injEq, Prod.mk.injEq]
  constructor
  · rintro ⟨address, _, rfl, count, _, rfl, keys, _, ⟨hlength, rfl⟩, rfl, rfl⟩
    have hbound := Bytes.toNat_lt count.toList
    have hdigits := Bytes.bigEndian_toNat count.toList
    rw [count.length_toList] at hbound hdigits
    refine ⟨?_, ?_⟩
    · rw [hlength]
      exact hbound
    · simp [AccessItem.encode, hlength, hdigits]
  · rintro ⟨hbound, rfl⟩
    -- the count is below what four bytes can hold, so it is read as it was written
    have hcount : Bytes.toNat (Bytes.bigEndian 4 item.keys.length) = item.keys.length := by
      rw [Bytes.toNat_bigEndian]
      exact Nat.mod_eq_of_lt hbound
    have hwidth : (Bytes.bigEndian 4 item.keys.length).length = 4 := Bytes.length_bigEndian ..
    let count : Vector UInt8 4 :=
      ⟨(Bytes.bigEndian 4 item.keys.length).toArray, by simpa using hwidth⟩
    have htoList : count.toList = Bytes.bigEndian 4 item.keys.length := by
      simp [count, Vector.toList]
    refine ⟨item.address, _, ?_, count, _, rfl, item.keys, rest, ⟨?_, rfl⟩, rfl, rfl⟩
    · rw [htoList]
      simp [AccessItem.encode]
    · rw [htoList, hcount]

theorem length_takeItem? {item : AccessItem} (h : takeItem? b = some (item, rest)) :
    rest.length < b.length := by
  obtain ⟨-, rfl⟩ := takeItem?_eq_some.mp h
  rw [List.length_append, AccessItem.length_encode]
  omega

/-- Reads items until no byte is left. -/
def decode? (b : Bytes) : Option AccessList :=
  if b = [] then some []
  else
    match hitem : takeItem? b with
    | none => none
    | some (item, rest) =>
      have : rest.length < b.length := length_takeItem? hitem
      (decode? rest).map (item :: ·)
termination_by b.length

theorem decode?_nil : decode? [] = some [] := by
  rw [decode?, if_pos rfl]

theorem decode?_of_takeItem? {item : AccessItem} (h : takeItem? b = some (item, rest)) :
    decode? b = (decode? rest).map (item :: ·) := by
  have hne : b ≠ [] := by
    rintro rfl
    have hlength := length_takeItem? h
    simp at hlength
  rw [decode?, if_neg hne]
  split
  · next hnone => simp [h] at hnone
  · next item' rest' hsome =>
    obtain ⟨rfl, rfl⟩ := Prod.mk.inj (Option.some.inj (h.symm.trans hsome))
    rfl

theorem decode?_encode {items : AccessList} (h : ∀ item ∈ items, item.keys.length < UInt32.size) :
    decode? (encode items) = some items := by
  induction items with
  | nil => exact decode?_nil
  | cons item items ih =>
    have hfirst : takeItem? (encode (item :: items)) = some (item, encode items) :=
      takeItem?_eq_some.mpr ⟨h item List.mem_cons_self, rfl⟩
    have hrest := ih fun next hnext => h next (List.mem_cons_of_mem item hnext)
    rw [decode?_of_takeItem? hfirst, hrest]
    rfl

theorem encode_of_decode? {items : AccessList} (h : decode? b = some items) :
    b = encode items ∧ ∀ item ∈ items, item.keys.length < UInt32.size := by
  induction b using decode?.induct generalizing items with
  | case1 =>
    rw [decode?_nil] at h
    obtain rfl := Option.some.inj h
    exact ⟨rfl, by simp⟩
  | case2 b hne hnone =>
    rw [decode?, if_neg hne] at h
    split at h
    · cases h
    · next hsome => simp [hnone] at hsome
  | case3 b hne item rest hsome _ ih =>
    rw [decode?_of_takeItem? hsome] at h
    obtain ⟨later, hlater, rfl⟩ := Option.map_eq_some_iff.mp h
    obtain ⟨rfl, hbounds⟩ := ih hlater
    obtain ⟨hbound, rfl⟩ := takeItem?_eq_some.mp hsome
    exact ⟨rfl, List.forall_mem_cons.mpr ⟨hbound, hbounds⟩⟩

/-- Access lists are read back as they were written, as long as no item has more keys than its four
bytes can count, and nothing but such a list is read at all. So no two of them are written alike. An
item takes 24 bytes and 32 more for each key, and lists are written one behind the other. -/
theorem encoding_is_uniquely_decodable :
    (∀ items : AccessList, (∀ item ∈ items, item.keys.length < UInt32.size) →
        decode? (encode items) = some items) ∧
      (∀ b items, decode? b = some items →
        b = encode items ∧ ∀ item ∈ items, item.keys.length < UInt32.size) ∧
      (∀ a b : AccessList, (∀ item ∈ a, item.keys.length < UInt32.size) →
        (∀ item ∈ b, item.keys.length < UInt32.size) → encode a = encode b → a = b) ∧
      (∀ items : AccessList,
        (encode items).length = (items.map fun item => 24 + 32 * item.keys.length).sum) ∧
      ∀ a b : AccessList, encode (a ++ b) = encode a ++ encode b := by
  refine ⟨fun items h => decode?_encode h, fun b items h => encode_of_decode? h,
    fun a b ha hb hab => ?_, fun items => ?_, encode_append⟩
  · have hread := decode?_encode ha
    rw [hab, decode?_encode hb] at hread
    exact (Option.some.inj hread).symm
  · have hlength : (encode items).length = (items.map (·.encode.length)).sum :=
      List.length_flatMap
    simp only [hlength, AccessItem.length_encode]

/-- An account without keys, and one with two. -/
def sampleList : AccessList :=
  [⟨.replicate 20 1, []⟩, ⟨.replicate 20 2, [.replicate 32 3, .replicate 32 4]⟩]

/-- The same keys, one for each account. -/
def spreadList : AccessList :=
  [⟨.replicate 20 1, [.replicate 32 3]⟩, ⟨.replicate 20 2, [.replicate 32 4]⟩]

theorem encoding_is_uniquely_decodable_sample :
    (∀ item ∈ sampleList, item.keys.length < UInt32.size) ∧
      (∀ item ∈ spreadList, item.keys.length < UInt32.size) ∧
      decode? (encode sampleList) = some sampleList ∧ (encode sampleList).length = 112 ∧
      (encode spreadList).length = 112 ∧ encode sampleList ≠ encode spreadList := by
  have hsample : ∀ item ∈ sampleList, item.keys.length < UInt32.size := by decide
  have hspread : ∀ item ∈ spreadList, item.keys.length < UInt32.size := by decide
  obtain ⟨hread, -, hinjective, hlength, -⟩ := encoding_is_uniquely_decodable
  refine ⟨hsample, hspread, hread sampleList hsample, hlength sampleList, hlength spreadList, ?_⟩
  intro hsame
  have hlists : sampleList = spreadList := hinjective _ _ hsample hspread hsame
  exact absurd hlists (by decide)

end AccessList
end EvmTrace
