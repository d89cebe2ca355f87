import EvmTrace.Field
import EvmTrace.Proofs.Numerals

/-!
# Reading fields back

What is written by an encoder is never empty and holds neither a space nor a newline, and a reader
for each sort of field gives back the value that was written.
-/
namespace EvmTrace

theorem mapM_map_of_forall {α β γ : Type} {read : β → Option γ} {write : α → β} {value : α → γ}
    {l : List α} (h : ∀ a ∈ l, read (write a) = some (value a)) :
    (l.map write).mapM read = some (l.map value) := by
  induction l with
  | nil => rfl
  | cons a rest ih =>
    have hrest := ih fun a' ha' => h a' (by simp [ha'])
    simp [List.mapM_cons, h a (by simp), hrest]

namespace Field

/-! ## Words of a line -/

/-- Not empty, and clear of what ends words and lines. -/
structure IsWord (b : Bytes) : Prop where
  ne_nil : b ≠ []
  noSpace : 32 ∉ b
  noNewline : 10 ∉ b

/-- Written by an encoder of its own, other than texts. -/
def isEncoded : Field → Bool
  | text _ | view _ | json _ => false
  | _ => true

theorem isWord_sentinel : IsWord sentinel := ⟨by decide, by decide, by decide⟩

theorem sentinel_eq : sentinel = [46] := rfl

variable {b : Bytes} {n : Nat}

theorem isWord_hex (h : b ≠ []) : IsWord (Hex.encode b) where
  ne_nil := Hex.encode_ne_nil h
  noSpace := fun hmem => Hex.clear_of_mem_encode hmem (by decide)
  noNewline := fun hmem => Hex.clear_of_mem_encode hmem (by decide)

theorem hex_ne_sentinel (b : Bytes) : Hex.encode b ≠ sentinel := by
  intro h
  have hmem : 46 ∈ Hex.encode b := by rw [h]; decide
  exact Hex.clear_of_mem_encode hmem (by decide)

theorem toList_ne_nil (v : Vector UInt8 (n + 1)) : v.toList ≠ [] := by
  intro h
  have hlength := v.length_toList
  rw [h] at hlength
  simp at hlength

theorem encodeBytes_of_ne_nil (h : b ≠ []) : encodeBytes b = Hex.encode b := by
  simp [encodeBytes, h, Hex.encodeBlocks_eq]

theorem isWord_encodeBytes (b : Bytes) : IsWord (encodeBytes b) := by
  by_cases h : b = []
  · subst h
    exact isWord_sentinel
  · rw [encodeBytes_of_ne_nil h]
    exact isWord_hex h

theorem isWord_vector (v : Vector UInt8 (n + 1)) : IsWord (Hex.encodeBlocks v.toList) := by
  rw [Hex.encodeBlocks_eq]
  exact isWord_hex (toList_ne_nil v)

theorem IsWord.comma {a b : Bytes} (ha : IsWord a) (hb : IsWord b) : IsWord (a ++ 44 :: b) where
  ne_nil := by simp
  noSpace := by simp [ha.noSpace, hb.noSpace]
  noNewline := by simp [ha.noNewline, hb.noNewline]

theorem isWord_encodeHashes (hs : List Hash) : IsWord (encodeHashes hs) := by
  fun_induction encodeHashes hs with
  | case1 => exact isWord_sentinel
  | case2 h => exact isWord_vector h
  | case3 h rest _ ih => exact (isWord_vector h).comma ih

theorem isWord_ofNat (n : Nat) : IsWord (Decimal.ofNat n) where
  ne_nil := Decimal.ofNat_ne_nil n
  noSpace := fun hmem => absurd (Decimal.isDigit_of_mem_ofNat hmem) (by decide)
  noNewline := fun hmem => absurd (Decimal.isDigit_of_mem_ofNat hmem) (by decide)

theorem isWord_of_extractable {s : String} (h : isExtractableWord s = true) :
    IsWord (Bytes.ofText s) := by
  simp only [isExtractableWord, Bool.and_eq_true, Bool.not_eq_true', List.isEmpty_eq_false_iff,
    List.all_eq_true] at h
  exact ⟨h.1, fun hmem => absurd (h.2 _ hmem) (by decide),
    fun hmem => absurd (h.2 _ hmem) (by decide)⟩

theorem isExtractableWord_gasReason (r : GasReason) : isExtractableWord r.word = true := by
  cases r <;> decide

theorem isExtractableWord_balanceReason (r : BalanceReason) :
    isExtractableWord r.word = true := by
  cases r <;> decide

theorem isWord_encode {f : Field} (h : f.isEncoded = true) : IsWord f.encode := by
  cases f with
  | count n => exact isWord_ofNat n
  | flag b => cases b <;> exact ⟨by decide, by decide, by decide⟩
  | address a => exact isWord_vector a
  | recipient a =>
    cases a with
    | none => exact isWord_sentinel
    | some a => exact isWord_vector a
  | hash v => exact isWord_vector v
  | hashes hs => exact isWord_encodeHashes hs
  | bytes b => exact isWord_encodeBytes b
  | word w =>
    cases w with
    | none => exact isWord_sentinel
    | some w =>
      rw [encode, encodeWord]
      exact isWord_encodeBytes _
  | gasReason r =>
    rw [encode]
    exact isWord_of_extractable (isExtractableWord_gasReason r)
  | balanceReason r =>
    rw [encode]
    exact isWord_of_extractable (isExtractableWord_balanceReason r)
  | callType t => cases t <;> exact ⟨by decide, by decide, by decide⟩
  | _ => cases h

/-! ## Readers -/

def readBelow? (bound : Nat) (b : Bytes) : Option Nat := (Decimal.toNat? b).filter (· < bound)

def readUInt64? (b : Bytes) : Option UInt64 := (readBelow? UInt64.size b).map UInt64.ofNat

def readUInt8? (b : Bytes) : Option UInt8 := (readBelow? UInt8.size b).map UInt8.ofNat

def readFlag? (b : Bytes) : Option Bool := [true, false].find? fun x => (flag x).encode == b

def readVector? (n : Nat) (b : Bytes) : Option (Vector UInt8 n) := do
  let bytes ← Hex.decode? b
  if h : bytes.length = n then some ⟨bytes.toArray, by simpa using h⟩ else none

/-- The sentinel is read as nothing, anything else by a reader. -/
def readAbsent? {α : Type} (read : Bytes → Option α) (b : Bytes) : Option (Option α) :=
  if b = sentinel then some none else (read b).map some

def readHashes? (b : Bytes) : Option (List Hash) :=
  if b = sentinel then some [] else (b.splitOn 44).mapM (readVector? 32)

/-- The sentinel is read as no bytes. -/
def readBytes? (b : Bytes) : Option Bytes :=
  if b = sentinel then some [] else (Hex.decode? b).filter (· ≠ [])

def readWord? (b : Bytes) : Option Word := do
  let n := Bytes.toNat (← readBytes? b)
  if n ≤ Word.max.toNat then some (.ofNat 256 n) else none

def readGasReason? (b : Bytes) : Option GasReason := do
  (GasReason.ofWord (← Bytes.text? b)).toOption

def readBalanceReason? (b : Bytes) : Option BalanceReason := do
  (BalanceReason.ofWord (← Bytes.text? b)).toOption

def readCallType? (b : Bytes) : Option CallType :=
  CallType.all.find? fun t => (callType t).encode == b

@[simp] theorem toNat?_encode_count (n : Nat) : Decimal.toNat? (count n).encode = some n :=
  Decimal.toNat?_ofNat n

theorem readBelow?_encode {bound n : Nat} (h : n < bound) :
    readBelow? bound (count n).encode = some n := by
  simp [readBelow?, h]

@[simp] theorem readUInt64?_encode (n : UInt64) : readUInt64? (count n.toNat).encode = some n := by
  simp [readUInt64?, readBelow?_encode n.toNat_lt]

@[simp] theorem readUInt8?_encode (n : UInt8) : readUInt8? (count n.toNat).encode = some n := by
  simp [readUInt8?, readBelow?_encode n.toNat_lt]

@[simp] theorem readFlag?_encode (b : Bool) : readFlag? (flag b).encode = some b := by
  cases b <;> decide

theorem readVector?_hex (v : Vector UInt8 n) : readVector? n (Hex.encode v.toList) = some v := by
  simp [readVector?, Hex.decode?_encode, Vector.toList]

@[simp] theorem readVector?_encode_address (a : Address) :
    readVector? 20 (address a).encode = some a := by
  rw [encode, Hex.encodeBlocks_eq, readVector?_hex]

@[simp] theorem readVector?_encode_hash (h : Hash) : readVector? 32 (hash h).encode = some h := by
  rw [encode, Hex.encodeBlocks_eq, readVector?_hex]

@[simp] theorem readAbsent?_encode_recipient (a : Option Address) :
    readAbsent? (readVector? 20) (recipient a).encode = some a := by
  cases a with
  | none => simp [readAbsent?, encode]
  | some a =>
    rw [encode, Hex.encodeBlocks_eq, readAbsent?, if_neg (hex_ne_sentinel _), readVector?_hex]
    rfl

/-- The hash of code that may never have been there. -/
@[simp] theorem readAbsent?_encode_oldHash (h : Option Hash) :
    readAbsent? (readVector? 32) (bytes (h.elim [] Vector.toList)).encode = some h := by
  cases h with
  | none => simp [readAbsent?, encode, encodeBytes]
  | some h =>
    have hencode : (bytes h.toList).encode = Hex.encode h.toList :=
      encodeBytes_of_ne_nil (toList_ne_nil h)
    rw [Option.elim_some, hencode, readAbsent?, if_neg (hex_ne_sentinel _), readVector?_hex]
    rfl

@[simp] theorem readBytes?_encode (b : Bytes) : readBytes? (bytes b).encode = some b := by
  by_cases h : b = []
  · subst h
    simp [readBytes?, encode, encodeBytes]
  · have hencode : (bytes b).encode = Hex.encode b := encodeBytes_of_ne_nil h
    rw [hencode, readBytes?, if_neg (hex_ne_sentinel _), Hex.decode?_encode]
    simp [h]

@[simp] theorem readWord?_encode (w : Word) : readWord? (word (some w)).encode = some w := by
  have hbytes : readBytes? (word (some w)).encode = some (Bytes.trimZeros w.toBytes) :=
    readBytes?_encode _
  have hmax : w.toNat ≤ Word.max.toNat := by
    have hlt := w.isLt
    simp only [Word.max, BitVec.toNat_allOnes]
    omega
  simp [readWord?, hbytes, w.toNat_trimZeros, hmax]

theorem encodeWord_eq_sentinel (w : Word) : encodeWord w = sentinel ↔ w = 0 := by
  constructor
  · intro h
    have hread := readWord?_encode w
    rw [show (word (some w)).encode = sentinel from h] at hread
    exact (Option.some.inj hread).symm
  · rintro rfl
    decide

/-- What is left of a word that may be absent. -/
def canonicalWord (w : Option Word) : Option Word := if w = some 0 then none else w

@[simp] theorem readAbsent?_encode_word (w : Option Word) :
    readAbsent? readWord? (word w).encode = some (canonicalWord w) := by
  cases w with
  | none => rfl
  | some w =>
    by_cases hw : w = 0
    · have hencode : (word (some w)).encode = sentinel := (encodeWord_eq_sentinel w).mpr hw
      rw [readAbsent?, if_pos hencode, canonicalWord, if_pos (congrArg some hw)]
    · have hencode : (word (some w)).encode ≠ sentinel := fun h =>
        hw ((encodeWord_eq_sentinel w).mp h)
      rw [readAbsent?, if_neg hencode, readWord?_encode, canonicalWord,
        if_neg fun h => hw (Option.some.inj h)]
      rfl

theorem encode_canonicalWord (w : Option Word) :
    (word (canonicalWord w)).encode = (word w).encode := by
  by_cases hw : w = some 0
  · subst hw
    decide
  · rw [canonicalWord, if_neg hw]

theorem encodeHashes_eq {hs : List Hash} (h : hs ≠ []) :
    encodeHashes hs = [44].intercalate (hs.map fun h => Hex.encode h.toList) := by
  fun_induction encodeHashes hs with
  | case1 => exact absurd rfl h
  | case2 h => simp [Hex.encodeBlocks_eq]
  | case3 h rest hrest ih =>
    obtain ⟨next, more, rfl⟩ := List.exists_cons_of_ne_nil hrest
    rw [ih hrest, Hex.encodeBlocks_eq]
    simp [List.intercalate]

theorem encodeHashes_ne_sentinel {hs : List Hash} (h : hs ≠ []) : encodeHashes hs ≠ sentinel := by
  obtain ⟨v, rest, rfl⟩ := List.exists_cons_of_ne_nil h
  intro hsentinel
  have hlength := congrArg List.length hsentinel
  rw [encodeHashes_eq h] at hlength
  have hhex : (Hex.encode v.toList).length = 64 := by rw [Hex.length_encode, v.length_toList]
  cases rest with
  | nil => simp [hhex, sentinel_eq] at hlength
  | cons next more =>
    simp only [List.map_cons, List.intercalate_cons_cons, List.length_append, hhex, sentinel_eq,
      List.length_singleton] at hlength
    omega

@[simp] theorem readHashes?_encode (hs : List Hash) :
    readHashes? (hashes hs).encode = some hs := by
  by_cases h : hs = []
  · subst h
    rfl
  · have hcut : (encodeHashes hs).splitOn 44 = hs.map fun v => Hex.encode v.toList := by
      rw [encodeHashes_eq h]
      refine List.splitOn_intercalate 44 (fun l hl hmem => ?_) (by simpa using h)
      obtain ⟨v, -, rfl⟩ := List.mem_map.mp hl
      exact Hex.clear_of_mem_encode hmem (by decide)
    rw [encode, readHashes?, if_neg (encodeHashes_ne_sentinel h), hcut]
    exact (mapM_map_of_forall fun v _ => readVector?_hex v).trans (by rw [List.map_id'])

@[simp] theorem readGasReason?_encode (r : GasReason) :
    readGasReason? (gasReason r).encode = some r := by
  simp [readGasReason?, encode, Bytes.text?_ofText, GasReason.ofWord_word, Except.toOption]

@[simp] theorem readBalanceReason?_encode (r : BalanceReason) :
    readBalanceReason? (balanceReason r).encode = some r := by
  simp [readBalanceReason?, encode, Bytes.text?_ofText, BalanceReason.ofWord_word, Except.toOption]

@[simp] theorem readCallType?_encode (t : CallType) :
    readCallType? (callType t).encode = some t := by
  cases t <;> decide

end Field
end EvmTrace
