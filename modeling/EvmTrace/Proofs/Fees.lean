import EvmTrace.Transaction
import Mathlib.Data.List.Induction
import Mathlib.Tactic.Common

/-!
# Fees of transactions

Whatever is added to a transaction, and in whatever order, its type tells what was added, and each
thing that was added is there as it was added last. So the type and the fees agree, and the price is
the least of what is offered and what is allowed, in numbers without an upper bound.
-/
namespace EvmTrace.Transaction

/-! ## What parts tell -/

namespace Part

def signature? : Part → Option (Bytes × Bytes × Bytes)
  | signature v r s => some (v, r, s)
  | _ => none

def accessList? : Part → Option AccessList
  | accessList items => some items
  | _ => none

/-- The maximal fee and the maximal tip. -/
def fees? : Part → Option (Word × Word)
  | dynamicFee maxFee maxTip => some (maxFee, maxTip)
  | _ => none

def isAccessList (p : Part) : Bool := p.accessList?.isSome

def isDynamicFee (p : Part) : Bool := p.fees?.isSome

end Part

section Last

variable {α : Type} (tell? : Part → Option α)

/-- What the last part that tells of a thing tells of it. -/
def last? (parts : List Part) : Option α := (parts.filterMap tell?).getLast?

@[simp] theorem last?_nil : last? tell? [] = none := rfl

@[simp] theorem last?_concat (parts : List Part) (p : Part) :
    last? tell? (parts ++ [p]) = (tell? p).or (last? tell? parts) := by
  cases h : tell? p with
  | none => simp [last?, List.filterMap_append, h]
  | some x => simp [last?, List.filterMap_append, h]

theorem isSome_last? (parts : List Part) :
    (last? tell? parts).isSome = parts.any fun p => (tell? p).isSome := by
  induction parts using List.reverseRecOn with
  | nil => rfl
  | append_singleton parts p ih => simp [ih, Bool.or_comm]

end Last

/-! ## Transactions from parts -/

/-- The type that parts give to a legacy transaction. -/
def typeOf (parts : List Part) : UInt8 :=
  if parts.any Part.isDynamicFee then 2 else if parts.any Part.isAccessList then 1 else 0

/-- A legacy transaction with all that parts tell. -/
def withParts (tx : Transaction) (parts : List Part) : Transaction :=
  let signature := (last? Part.signature? parts).getD (tx.v, tx.r, tx.s)
  let fees := last? Part.fees? parts
  { tx with
    type := typeOf parts
    v := signature.1
    r := signature.2.1
    s := signature.2.2
    maxFee := fees.map Prod.fst
    maxTip := fees.map Prod.snd
    accessList := (last? Part.accessList? parts).getD tx.accessList }

variable {tx : Transaction} {parts : List Part}

theorem typeOf_concat_signature (v r s : Bytes) :
    typeOf (parts ++ [.signature v r s]) = typeOf parts := by
  simp [typeOf, Part.isDynamicFee, Part.isAccessList, Part.fees?, Part.accessList?]

/-- An access list raises the type of a legacy transaction only. -/
theorem typeOf_concat_accessList (items : AccessList) :
    typeOf (parts ++ [.accessList items]) =
      if typeOf parts = legacyType then accessListType else typeOf parts := by
  have hfees : (parts ++ [Part.accessList items]).any Part.isDynamicFee =
      parts.any Part.isDynamicFee := by simp [Part.isDynamicFee, Part.fees?]
  have hlist : (parts ++ [Part.accessList items]).any Part.isAccessList = true := by
    simp [Part.isAccessList, Part.accessList?]
  unfold typeOf
  rw [hfees, hlist]
  by_cases hdynamic : parts.any Part.isDynamicFee = true
  · have htwo : ¬ (2 : UInt8) = legacyType := by decide
    simp only [hdynamic, if_true, htwo, if_false]
  · by_cases hitems : parts.any Part.isAccessList = true
    · simp [hdynamic, hitems, legacyType]
    · simp [hdynamic, hitems, legacyType, accessListType]

theorem typeOf_concat_dynamicFee (maxFee maxTip : Word) :
    typeOf (parts ++ [.dynamicFee maxFee maxTip]) = dynamicFeeType := by
  simp [typeOf, Part.isDynamicFee, Part.fees?, dynamicFeeType]

theorem withParts_nil (htype : tx.type = legacyType) (hfee : tx.maxFee = none)
    (htip : tx.maxTip = none) : tx.withParts [] = tx := by
  obtain ⟨type, _, _, _, _, _, _, _, _, maxFee, maxTip, _, _, _⟩ := tx
  simp only at htype hfee htip
  subst htype hfee htip
  rfl

/-- A part that comes last replaces what it tells and nothing else. -/
theorem withParts_concat (tx : Transaction) (parts : List Part) (p : Part) :
    tx.withParts (parts ++ [p]) = (tx.withParts parts).add p := by
  cases p with
  | signature v r s =>
    simp [withParts, add, typeOf_concat_signature, Part.signature?, Part.fees?, Part.accessList?]
  | accessList items =>
    have htype : (tx.withParts (parts ++ [.accessList items])).type =
        ((tx.withParts parts).add (.accessList items)).type := typeOf_concat_accessList items
    simp only [withParts, add, last?_concat, Part.signature?, Part.fees?,
      Part.accessList?, Option.none_or, Option.some_or, Option.getD_some] at htype ⊢
    rw [htype]
  | dynamicFee maxFee maxTip =>
    simp [withParts, add, typeOf_concat_dynamicFee, Part.signature?, Part.fees?,
      Part.accessList?]

theorem addAll_eq_withParts (htype : tx.type = legacyType) (hfee : tx.maxFee = none)
    (htip : tx.maxTip = none) (parts : List Part) : tx.addAll parts = tx.withParts parts := by
  induction parts using List.reverseRecOn with
  | nil => rw [addAll_nil, withParts_nil htype hfee htip]
  | append_singleton parts p ih =>
    rw [addAll_append, ih, withParts_concat]
    rfl

/-- The fees are there if and only if the type says so. -/
theorem typeOf_eq_two_iff : typeOf parts = 2 ↔ (last? Part.fees? parts).isSome = true := by
  rw [isSome_last?, typeOf]
  change _ ↔ parts.any Part.isDynamicFee = true
  cases parts.any Part.isDynamicFee with
  | true => simp
  | false => cases parts.any Part.isAccessList <;> simp

/-! ## Prices -/

/-- What is offered on top of the base fee, up to what is allowed. -/
theorem effectiveGasPrice_toNat {maxFee tip : Word} (htype : tx.type = dynamicFeeType)
    (hfee : tx.maxFee = some maxFee) (htip : tx.maxTip = some tip) (base : Word) :
    (tx.effectiveGasPrice (some base)).toNat = min (tip.toNat + base.toNat) maxFee.toNat := by
  have hsum := Word.saturatingAdd_toNat tip base
  have hmax : maxFee.toNat ≤ Word.max.toNat := by
    have hlt := maxFee.isLt
    simp only [Word.max, BitVec.toNat_allOnes]
    omega
  simp only [effectiveGasPrice, hfee, htip, htype, if_true]
  -- where the sum is cut off, it is still no less than any fee
  split
  · next hle =>
    rw [BitVec.le_def] at hle
    omega
  · next hgt =>
    rw [BitVec.le_def] at hgt
    omega

theorem effectiveGasPrice_of_type_ne (htype : tx.type ≠ dynamicFeeType) (baseFee : Option Word) :
    tx.effectiveGasPrice baseFee = tx.gasPrice := by
  unfold effectiveGasPrice
  split
  · rw [if_neg htype]
  · rfl

theorem effectiveGasPrice_none (tx : Transaction) : tx.effectiveGasPrice none = tx.gasPrice := by
  simp [effectiveGasPrice]

/-- Whatever is added to a new transaction, its type is 2 if a dynamic fee is among it, else 1 if an
access list is, else 0; both fees are there if and only if the type is 2; and of each thing there is
what was added last, while all else is as it was. A transaction of type 2 pays the tip on top of the
base fee, but no more than its maximal fee, and no less under a higher base fee. Without a base fee,
or of another type, it pays the declared price. -/
theorem type_and_price_agree (hash : Hash) (recipient : Option Address) (value : Word)
    (gasLimit : UInt64) (gasPrice : Word) (nonce : UInt64) (input : Bytes) (parts : List Part) :
    let new := legacy hash recipient value gasLimit gasPrice nonce input
    let tx := new.addAll parts
    let signature := (last? Part.signature? parts).getD ([], [], [])
    let fees := last? Part.fees? parts
    tx.type = (if parts.any Part.isDynamicFee then 2
      else if parts.any Part.isAccessList then 1 else 0) ∧
    (tx.maxFee.isSome = true ↔ tx.type = 2) ∧ (tx.maxTip.isSome = true ↔ tx.type = 2) ∧
    tx = { new with
      type := tx.type
      v := signature.1
      r := signature.2.1
      s := signature.2.2
      maxFee := fees.map Prod.fst
      maxTip := fees.map Prod.snd
      accessList := (last? Part.accessList? parts).getD [] } ∧
    (tx.type = 2 → ∃ maxFee tip, tx.maxFee = some maxFee ∧ tx.maxTip = some tip ∧
      ∀ base : Word,
        (tx.effectiveGasPrice (some base)).toNat = min (tip.toNat + base.toNat) maxFee.toNat ∧
        tx.effectiveGasPrice (some base) ≤ maxFee ∧
        ∀ higher, base ≤ higher →
          tx.effectiveGasPrice (some base) ≤ tx.effectiveGasPrice (some higher)) ∧
    ∀ baseFee, tx.type ≠ 2 ∨ baseFee = none → tx.effectiveGasPrice baseFee = gasPrice := by
  intro new tx signature fees
  have htx : tx = new.withParts parts := addAll_eq_withParts rfl rfl rfl parts
  have htype : tx.type = typeOf parts := by rw [htx]; rfl
  have hmaxFee : tx.maxFee = fees.map Prod.fst := by rw [htx]; rfl
  have hmaxTip : tx.maxTip = fees.map Prod.snd := by rw [htx]; rfl
  have hprice : tx.gasPrice = gasPrice := by rw [htx]; rfl
  have hiff : tx.type = 2 ↔ fees.isSome = true := by rw [htype]; exact typeOf_eq_two_iff
  refine ⟨htype, ?_, ?_, ?_, fun htwo => ?_, fun baseFee hcase => ?_⟩
  · rw [hiff, hmaxFee, Option.isSome_map]
  · rw [hiff, hmaxTip, Option.isSome_map]
  · rw [htype, htx]
    rfl
  · obtain ⟨⟨maxFee, tip⟩, hfees⟩ := Option.isSome_iff_exists.mp (hiff.mp htwo)
    have hfee : tx.maxFee = some maxFee := by rw [hmaxFee, hfees]; rfl
    have htip : tx.maxTip = some tip := by rw [hmaxTip, hfees]; rfl
    have hexact := effectiveGasPrice_toNat htwo hfee htip
    refine ⟨maxFee, tip, hfee, htip, fun base => ⟨hexact base, ?_, fun higher hle => ?_⟩⟩
    · rw [BitVec.le_def, hexact]
      exact Nat.min_le_right ..
    · rw [BitVec.le_def] at hle ⊢
      rw [hexact, hexact]
      omega
  · rcases hcase with hne | rfl
    · rw [effectiveGasPrice_of_type_ne hne, hprice]
    · rw [effectiveGasPrice_none, hprice]

/-- Two fees and two access lists; the fees that come last leave no room above them. -/
def sampleParts : List Part :=
  [.accessList [], .dynamicFee 100 2, .signature [1] [2] [3],
   .accessList [⟨.replicate 20 1, []⟩], .dynamicFee Word.max Word.max]

/-- The tip and the base fee make more than a word holds, and the maximal fee is paid. -/
theorem type_and_price_agree_atTheTop :
    let new := legacy (.replicate 32 0) none 0 21000 30 0 []
    let tx := new.addAll sampleParts
    tx.type = 2 ∧ tx.accessList = [⟨.replicate 20 1, []⟩] ∧ tx.maxTip = some Word.max ∧
      (tx.effectiveGasPrice (some 1)).toNat = Word.max.toNat ∧
      tx.effectiveGasPrice none = 30 ∧ (new.addAll []).effectiveGasPrice (some 1) = 30 := by
  intro new tx
  obtain ⟨htype, -, -, hrecord, hpaid, hdeclared⟩ :=
    type_and_price_agree (.replicate 32 0) none 0 21000 30 0 [] sampleParts
  obtain ⟨-, -, -, -, -, hlegacy⟩ :=
    type_and_price_agree (.replicate 32 0) none 0 21000 30 0 [] []
  have htwo : tx.type = 2 := htype.trans (by decide)
  obtain ⟨maxFee, tip, hfee, htip, hprice⟩ := hpaid htwo
  have htop : tx.maxFee = some Word.max ∧ tx.maxTip = some Word.max := ⟨rfl, rfl⟩
  obtain rfl : maxFee = Word.max := Option.some.inj (hfee.symm.trans htop.1)
  obtain rfl : tip = Word.max := Option.some.inj (htip.symm.trans htop.2)
  refine ⟨htwo, rfl, htop.2, ?_, hdeclared none (.inr rfl), hlegacy (some 1) (.inl (by decide))⟩
  rw [(hprice 1).1]
  decide

end EvmTrace.Transaction
