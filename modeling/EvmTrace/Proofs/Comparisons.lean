import EvmTrace.GenesisReport
import EvmTrace.Proofs.Lines
import EvmTrace.Proofs.Payloads
import Mathlib.Data.List.Forall2

/-!
# What genesis reports tell

A report compares what it shows of two headers. Every value that it shows can be read back, so two
values are shown alike if and only if they are the same, and the marks are those of the values.
-/
namespace EvmTrace

/-! ## Values as they are shown -/

namespace Hex

variable {a b : Bytes}

/-- Reading looks at the values of the digits only. -/
theorem decode?_of_values (h : List.Forall₂ (fun x y => value? x = value? y) a b) :
    decode? a = decode? b := by
  induction a using decode?.induct generalizing b with
  | case1 =>
    cases h
    rfl
  | case2 x =>
    cases h with
    | cons hx hnil =>
      cases hnil
      rfl
  | case3 high low rest ih =>
    cases h with
    | cons hhigh hrest =>
      cases hrest with
      | cons hlow hrest => simp only [decode?, hhigh, hlow, ih hrest]

theorem value?_capital : ∀ n < 16, value? (Address.capital (digit n)) = value? (digit n) := by
  decide

theorem isGraphic_capital :
    ∀ n < 16, 32 < Address.capital (digit n) ∧ Address.capital (digit n) < 127 := by
  decide

theorem exists_digit_of_mem_encode {c : UInt8} (h : c ∈ encode b) : ∃ n < 16, c = digit n := by
  obtain ⟨x, -, hc⟩ := List.mem_flatMap.mp h
  have hx : x.toNat < 256 := x.toNat_lt
  simp only [pair, List.mem_cons, List.not_mem_nil, or_false] at hc
  rcases hc with rfl | rfl
  · exact ⟨x.toNat / 16, by omega, rfl⟩
  · exact ⟨x.toNat % 16, by omega, rfl⟩

end Hex

theorem Decimal.isGraphic_ofNat (n : Nat) : (ofNat n).IsGraphic := by
  intro c hc
  have hdigit := isDigit_of_mem_ofNat hc
  simp only [isDigit, Bool.and_eq_true, decide_eq_true_eq, UInt8.le_iff_toNat_le] at hdigit
  have hbounds : 48 ≤ c.toNat ∧ c.toNat ≤ 57 := hdigit
  constructor
  · apply UInt8.lt_iff_toNat_lt.mpr
    have h : 32 < c.toNat := by omega
    exact h
  · apply UInt8.lt_iff_toNat_lt.mpr
    have h : c.toNat < 127 := by omega
    exact h

theorem Keccak.length_digest (message : Bytes) : (digest message).length = 32 := by
  simp [digest, List.length_flatMap, storeLane, List.map_const']

namespace Address

/-- The letter case that a digit of the checksum asks for. -/
def inCase (c : UInt8) (checksum : Nat) : UInt8 := if 8 ≤ checksum then capital c else c

/-- The digits of an address, some letters of them as capitals. -/
def checksummedDigits (a : Address) : Bytes :=
  List.zipWith inCase (Hex.encode a.toList)
    ((Keccak.digest (Hex.encode a.toList)).flatMap nibbles)

theorem checksummed_eq (a : Address) :
    a.checksummed = Bytes.ofText "0x" ++ a.checksummedDigits := rfl

/-- The checksum has a digit for each digit of the address. -/
theorem length_checksum (a : Address) :
    (Hex.encode a.toList).length ≤
      ((Keccak.digest (Hex.encode a.toList)).flatMap nibbles).length := by
  have hnibbles : ((Keccak.digest (Hex.encode a.toList)).flatMap nibbles).length =
      2 * (Keccak.digest (Hex.encode a.toList)).length := by
    simp [List.length_flatMap, nibbles, List.map_const', Nat.mul_comm]
  rw [Hex.length_encode, a.length_toList, hnibbles, Keccak.length_digest]
  omega

theorem value?_inCase {k : Nat} (hk : k < 16) (n : Nat) :
    Hex.value? (inCase (Hex.digit k) n) = Hex.value? (Hex.digit k) := by
  unfold inCase
  split
  · exact Hex.value?_capital k hk
  · rfl

theorem isGraphic_inCase {k : Nat} (hk : k < 16) (n : Nat) :
    32 < inCase (Hex.digit k) n ∧ inCase (Hex.digit k) n < 127 := by
  unfold inCase
  split
  · exact Hex.isGraphic_capital k hk
  · exact Hex.isGraphic_digit k hk

variable {digits : Bytes} {checksum : List Nat}

theorem values_inCase (hdigits : ∀ c ∈ digits, ∃ k < 16, c = Hex.digit k)
    (hlength : digits.length ≤ checksum.length) :
    List.Forall₂ (fun x y => Hex.value? x = Hex.value? y)
      (List.zipWith inCase digits checksum) digits := by
  induction digits generalizing checksum with
  | nil => exact .nil
  | cons c digits ih =>
    cases checksum with
    | nil => simp at hlength
    | cons n checksum =>
      obtain ⟨k, hk, rfl⟩ := hdigits c List.mem_cons_self
      have hrest := ih (fun c hc => hdigits c (List.mem_cons_of_mem _ hc)) (by simpa using hlength)
      exact .cons (value?_inCase hk n) hrest

theorem isGraphic_zipWith (hdigits : ∀ c ∈ digits, ∃ k < 16, c = Hex.digit k) :
    Bytes.IsGraphic (List.zipWith inCase digits checksum) := by
  induction digits generalizing checksum with
  | nil => simp [Bytes.IsGraphic]
  | cons c digits ih =>
    cases checksum with
    | nil => simp [Bytes.IsGraphic]
    | cons n checksum =>
      obtain ⟨k, hk, rfl⟩ := hdigits c List.mem_cons_self
      refine .cons (isGraphic_inCase hk n) (ih fun c hc => ?_)
      exact hdigits c (List.mem_cons_of_mem _ hc)

/-- Capitals change nothing of what is read. -/
theorem decode?_checksummedDigits (a : Address) :
    Hex.decode? a.checksummedDigits = some a.toList := by
  have hvalues := values_inCase (fun _ => Hex.exists_digit_of_mem_encode) a.length_checksum
  rw [checksummedDigits, Hex.decode?_of_values hvalues, Hex.decode?_encode]

theorem isGraphic_checksummed (a : Address) : a.checksummed.IsGraphic := by
  rw [checksummed_eq]
  exact .append (by decide) (isGraphic_zipWith fun _ => Hex.exists_digit_of_mem_encode)

end Address

namespace GenesisReport

open Bytes (IsGraphic)

/-! ## Compared values -/

/-- The sorts of values that a report shows. -/
inductive Kind
  | hash | address | bloom | count | word | bytes
  deriving DecidableEq, Repr

namespace Kind

def Value : Kind → Type
  | hash => Hash
  | address => Address
  | bloom => Bloom
  | count => UInt64
  | word => Word
  | bytes => Bytes

instance : (k : Kind) → DecidableEq k.Value
  | hash => inferInstanceAs (DecidableEq Hash)
  | address => inferInstanceAs (DecidableEq Address)
  | bloom => inferInstanceAs (DecidableEq Bloom)
  | count => inferInstanceAs (DecidableEq UInt64)
  | word => inferInstanceAs (DecidableEq Word)
  | bytes => inferInstanceAs (DecidableEq Bytes)

/-- How a value is shown. -/
def present : (k : Kind) → k.Value → Bytes
  | hash => fun (h : Hash) => Hex.prefixed h.toList
  | address => fun (a : Address) => a.checksummed
  | bloom => fun (b : Bloom) => Hex.encode b.toList
  | count => fun (n : UInt64) => Decimal.ofNat n.toNat
  | word => fun (w : Word) => Decimal.ofNat w.toNat
  | bytes => fun (b : Bytes) => Hex.encode b

/-- Reads a value of fixed width behind `0x`, in either letter case. -/
def readPrefixed? (n : Nat) : Bytes → Option (Vector UInt8 n)
  | 48 :: 120 :: digits => Field.readVector? n digits
  | _ => none

def readWord? (b : Bytes) : Option Word :=
  (Field.readBelow? (Nat.pow 2 256) b).map (BitVec.ofNat 256)

theorem readPrefixed?_prefixed {n : Nat} (v : Vector UInt8 n) :
    readPrefixed? n (Hex.prefixed v.toList) = some v := Field.readVector?_hex v

theorem readPrefixed?_checksummed (a : Address) : readPrefixed? 20 a.checksummed = some a := by
  have hread : Field.readVector? 20 a.checksummedDigits = some a := by
    simp [Field.readVector?, a.decode?_checksummedDigits, Vector.toList]
  exact hread

theorem readWord?_ofNat (w : Word) : readWord? (Decimal.ofNat w.toNat) = some w := by
  have hread : Field.readBelow? (Nat.pow 2 256) (Decimal.ofNat w.toNat) = some w.toNat :=
    Field.readBelow?_encode w.isLt
  rw [readWord?, hread, Option.map_some, BitVec.ofNat_toNat, BitVec.setWidth_eq]

/-- Reads what is shown of a value. -/
def read? : (k : Kind) → Bytes → Option k.Value
  | hash => readPrefixed? 32
  | address => readPrefixed? 20
  | bloom => Field.readVector? 256
  | count => Field.readUInt64?
  | word => readWord?
  | bytes => Hex.decode?

theorem read?_present (k : Kind) (v : k.Value) : k.read? (k.present v) = some v := by
  cases k with
  | hash => exact readPrefixed?_prefixed v
  | address => exact readPrefixed?_checksummed v
  | bloom => exact Field.readVector?_hex v
  | count => exact Field.readUInt64?_encode v
  | word => exact readWord?_ofNat v
  | bytes => exact Hex.decode?_encode v

/-- Values are shown alike if and only if they are the same. -/
theorem present_inj {k : Kind} {v w : k.Value} : k.present v = k.present w ↔ v = w := by
  constructor
  · intro h
    have hread := k.read?_present v
    rw [h, k.read?_present w] at hread
    exact (Option.some.inj hread).symm
  · rintro rfl
    rfl

theorem isGraphic_present (k : Kind) (v : k.Value) : (k.present v).IsGraphic := by
  cases k with
  | hash => exact Hex.isGraphic_prefixed _
  | address => exact Address.isGraphic_checksummed v
  | bloom => exact Hex.isGraphic_encode _
  | count => exact Decimal.isGraphic_ofNat _
  | word => exact Decimal.isGraphic_ofNat _
  | bytes => exact Hex.isGraphic_encode v

end Kind

/-! ## Compared fields -/

/-- The fields of a header that are compared. The base fee is not among them. -/
inductive ComparedField
  | hash | number | parentHash | uncleHash | coinbase | root | transactionRoot | receiptRoot | bloom
  | difficulty | gasLimit | gasUsed | time | extra | mixDigest | nonce
  deriving DecidableEq, Repr

namespace ComparedField

/-- All of them, in the order of the report. -/
def all : List ComparedField :=
  [hash, number, parentHash, uncleHash, coinbase, root, transactionRoot, receiptRoot, bloom,
   difficulty, gasLimit, gasUsed, time, extra, mixDigest, nonce]

def name : ComparedField → String
  | hash => "Hash"
  | number => "Number"
  | parentHash => "ParentHash"
  | uncleHash => "UncleHash"
  | coinbase => "Coinbase"
  | root => "Root"
  | transactionRoot => "TxHash"
  | receiptRoot => "ReceiptHash"
  | bloom => "Bloom"
  | difficulty => "Difficulty"
  | gasLimit => "GasLimit"
  | gasUsed => "GasUsed"
  | time => "Time"
  | extra => "Extra"
  | mixDigest => "MixDigest"
  | nonce => "Nonce"

def kind : ComparedField → Kind
  | hash | parentHash | uncleHash | root | transactionRoot | receiptRoot | mixDigest => .hash
  | number | gasLimit | gasUsed | time | nonce => .count
  | coinbase => .address
  | bloom => .bloom
  | difficulty => .word
  | extra => .bytes

def value (h : Header) : (f : ComparedField) → f.kind.Value
  | hash => h.hash
  | number => h.number
  | parentHash => h.parentHash
  | uncleHash => h.uncleHash
  | coinbase => h.coinbase
  | root => h.root
  | transactionRoot => h.transactionRoot
  | receiptRoot => h.receiptRoot
  | bloom => h.bloom
  | difficulty => h.difficulty
  | gasLimit => h.gasLimit
  | gasUsed => h.gasUsed
  | time => h.time
  | extra => h.extra
  | mixDigest => h.mixDigest
  | nonce => h.nonce

def comparison (f : ComparedField) : Comparison := ⟨f.name, fun h => f.kind.present (f.value h)⟩

theorem comparisons_eq : comparisons = all.map comparison := rfl

variable (actual expected : Header) (f : ComparedField)

/-- What stands between the values. -/
def mark : String := if f.value actual = f.value expected then "==" else "!="

/-- The words of the line of a field. -/
def words : List Bytes :=
  [Bytes.ofText f.name, Bytes.ofText "[(actual)", f.kind.present (f.value actual),
   Bytes.ofText (f.mark actual expected), f.kind.present (f.value expected),
   Bytes.ofText "(expected)]"]

theorem isGraphic_name : (Bytes.ofText f.name).IsGraphic := by
  cases f <;> decide

theorem isGraphic_words : ∀ w ∈ f.words actual expected, w.IsGraphic := by
  have hmark : (Bytes.ofText (f.mark actual expected)).IsGraphic := by
    unfold mark
    split <;> decide
  simp only [words, List.forall_mem_cons]
  exact ⟨f.isGraphic_name, by decide, f.kind.isGraphic_present _, hmark,
    f.kind.isGraphic_present _, by decide, by simp⟩

/-- Values are compared as they are shown, and it makes no difference. -/
theorem sign_eq :
    Bytes.ofText (sign (f.kind.present (f.value actual) == f.kind.present (f.value expected))) =
      32 :: Bytes.ofText (f.mark actual expected) ++ [32] := by
  unfold mark
  by_cases h : f.value actual = f.value expected
  · rw [if_pos h, h, beq_self_eq_true]
    rfl
  · have hshown : f.kind.present (f.value actual) ≠ f.kind.present (f.value expected) :=
      fun hsame => h (Kind.present_inj.mp hsame)
    rw [if_neg h, beq_false_of_ne hshown]
    rfl

theorem line_eq : f.comparison.line actual expected =
    [32].intercalate (f.words actual expected) := by
  have hopen : Bytes.ofText " [(actual) " = 32 :: Bytes.ofText "[(actual)" ++ [32] := rfl
  have hclose : Bytes.ofText " (expected)]" = 32 :: Bytes.ofText "(expected)]" := rfl
  simp only [Comparison.line, comparison, words, sign_eq, hopen, hclose]
  simp [List.intercalate]

theorem splitOn_line :
    (f.comparison.line actual expected).splitOn 32 = f.words actual expected := by
  rw [line_eq]
  refine List.splitOn_intercalate 32 (fun w hw hspace => ?_) (by simp [words])
  exact absurd (f.isGraphic_words actual expected w hw 32 hspace) (by decide)

theorem newline_not_mem_line : 10 ∉ f.comparison.line actual expected := by
  rw [line_eq]
  refine Line.newline_not_mem fun w hw hnewline => ?_
  exact absurd (f.isGraphic_words actual expected w hw 10 hnewline) (by decide)

end ComparedField

/-! ## Reports -/

/-- The report that gets to a stream that does not break. -/
def report (actual expected : Header) : Bytes := (write actual expected (.empty none)).1.content

theorem report_eq (actual expected : Header) :
    report actual expected = (lines actual expected).flatMap (· ++ [10]) := by
  rw [report, write, Stream.empty, Stream.send_unlimited]
  simp [List.flatMap_def]

/-- The lines of a report, and the nothing behind the last of them. -/
theorem splitOn_report (actual expected : Header) :
    (report actual expected).splitOn 10 = introduction.map Bytes.ofText ++
      ComparedField.all.map (·.comparison.line actual expected) ++ [[], []] := by
  have hintroduction : ∀ l ∈ introduction.map Bytes.ofText, 10 ∉ l := by decide
  have hclear : ∀ l ∈ lines actual expected, 10 ∉ l := by
    intro l hl
    rw [lines, ComparedField.comparisons_eq, List.map_map] at hl
    simp only [List.mem_append, List.mem_singleton] at hl
    rcases hl with (hl | hl) | rfl
    · exact hintroduction l hl
    · obtain ⟨f, -, rfl⟩ := List.mem_map.mp hl
      exact f.newline_not_mem_line actual expected
    · simp
  rw [report_eq, Line.splitOn_newline hclear, lines, ComparedField.comparisons_eq, List.map_map,
    List.append_assoc]
  rfl

/-- Tells of a field what it is in both headers, and whether that is the same. -/
def Tells (actual expected : Header) (f : ComparedField) (line : Bytes) : Prop :=
  ∃ a e : Bytes,
    line.splitOn 32 =
      [Bytes.ofText f.name, Bytes.ofText "[(actual)", a,
       Bytes.ofText (if f.value actual = f.value expected then "==" else "!="), e,
       Bytes.ofText "(expected)]"] ∧
      f.kind.read? a = some (f.value actual) ∧ f.kind.read? e = some (f.value expected)

theorem tells_line (actual expected : Header) (f : ComparedField) :
    Tells actual expected f (f.comparison.line actual expected) :=
  ⟨_, _, f.splitOn_line actual expected, Kind.read?_present .., Kind.read?_present ..⟩

/-- The name of the field on a line that is marked for a difference. -/
def mismatch? (line : Bytes) : Option Bytes :=
  match line.splitOn 32 with
  | [name, _, _, mark, _, _] => if mark = Bytes.ofText "!=" then some name else none
  | _ => none

/-- The names of the fields that are marked for a difference. -/
def mismatches (report : Bytes) : List Bytes := (report.splitOn 10).filterMap mismatch?

theorem mismatch?_line (actual expected : Header) (f : ComparedField) :
    mismatch? (f.comparison.line actual expected) =
      if f.value actual ≠ f.value expected then some (Bytes.ofText f.name) else none := by
  rw [mismatch?, f.splitOn_line actual expected]
  by_cases h : f.value actual = f.value expected
  · have hmark : Bytes.ofText (f.mark actual expected) ≠ Bytes.ofText "!=" := by
      rw [ComparedField.mark, if_pos h]
      decide
    rw [if_neg (not_not.mpr h)]
    exact if_neg hmark
  · have hmark : Bytes.ofText (f.mark actual expected) = Bytes.ofText "!=" := by
      rw [ComparedField.mark, if_neg h]
    rw [if_pos h]
    exact if_pos hmark

theorem mismatches_report (actual expected : Header) :
    mismatches (report actual expected) =
      (ComparedField.all.filter fun f => f.value actual ≠ f.value expected).map
        fun f => Bytes.ofText f.name := by
  have hintroduction : (introduction.map Bytes.ofText).filterMap mismatch? = [] := by decide
  have hends : ([[], []] : List Bytes).filterMap mismatch? = [] := by decide
  rw [mismatches, splitOn_report, List.filterMap_append, List.filterMap_append, hintroduction,
    hends, List.nil_append, List.append_nil]
  induction ComparedField.all with
  | nil => rfl
  | cons f rest ih =>
    rw [List.map_cons, List.filterMap_cons, mismatch?_line]
    by_cases h : f.value actual = f.value expected
    · simp [h, ih]
    · simp [h, ih]

theorem value_withBaseFee (h : Header) (fee : Option Word) (f : ComparedField) :
    f.value { h with baseFee := fee } = f.value h := by
  cases f <;> rfl

/-- A report is the introduction, one line for each compared field, and an empty line. The line of a
field shows what it is in both headers, so that both can be read back, and marks it as equal if it
is the same in both, and as different otherwise. So the fields with such a mark are those in which
the headers differ, and the base fee never counts. -/
theorem report_is_exact :
    (∀ actual expected, ∃ lines : List Bytes,
        (report actual expected).splitOn 10 =
            introduction.map Bytes.ofText ++ lines ++ [[], []] ∧
          List.Forall₂ (Tells actual expected) ComparedField.all lines ∧
          mismatches (report actual expected) =
            (ComparedField.all.filter fun f => f.value actual ≠ f.value expected).map
              fun f => Bytes.ofText f.name) ∧
      (∀ f, ComparedField.all.count f = 1) ∧
      ∀ h fee, mismatches (report h { h with baseFee := fee }) = [] := by
  refine ⟨fun actual expected => ?_, fun f => by cases f <;> rfl, fun h fee => ?_⟩
  · refine ⟨_, splitOn_report actual expected, ?_, mismatches_report actual expected⟩
    rw [List.forall₂_map_right_iff]
    exact List.forall₂_same.mpr fun f _ => tells_line actual expected f
  · rw [mismatches_report]
    simp [value_withBaseFee]

end GenesisReport
end EvmTrace
