import EvmTrace.AccessList
import EvmTrace.Word

/-!
# Transactions

A transaction starts as a legacy one and is turned into an access list or a dynamic fee one by
what is added to it. The price it pays depends on its type and on the base fee of its block.
-/
namespace EvmTrace

structure Transaction where
  type : UInt8
  hash : Hash
  /-- Absent for a contract creation. -/
  recipient : Option Address
  value : Word
  v : Bytes
  r : Bytes
  s : Bytes
  gasLimit : UInt64
  gasPrice : Word
  maxFee : Option Word
  maxTip : Option Word
  nonce : UInt64
  input : Bytes
  accessList : AccessList
  deriving DecidableEq, Repr

namespace Transaction

def legacyType : UInt8 := 0

def accessListType : UInt8 := 1

def dynamicFeeType : UInt8 := 2

/-- An unsigned legacy transaction. -/
def legacy (hash : Hash) (recipient : Option Address) (value : Word) (gasLimit : UInt64)
    (gasPrice : Word) (nonce : UInt64) (input : Bytes) : Transaction where
  type := legacyType
  hash := hash
  recipient := recipient
  value := value
  v := []
  r := []
  s := []
  gasLimit := gasLimit
  gasPrice := gasPrice
  maxFee := none
  maxTip := none
  nonce := nonce
  input := input
  accessList := []

/-- What can be added to a transaction. -/
inductive Part
  | signature (v r s : Bytes)
  | accessList (items : AccessList)
  | dynamicFee (maxFee maxTip : Word)
  deriving DecidableEq, Repr

/-- An access list raises the type of a legacy transaction only; a dynamic fee always raises it. -/
def add (tx : Transaction) : Part → Transaction
  | .signature v r s => { tx with v, r, s }
  | .accessList items =>
    { tx with
      type := if tx.type = legacyType then accessListType else tx.type
      accessList := items }
  | .dynamicFee maxFee maxTip =>
    { tx with type := dynamicFeeType, maxFee := some maxFee, maxTip := some maxTip }

def addAll (tx : Transaction) (parts : List Part) : Transaction := parts.foldl add tx

def isCreation (tx : Transaction) : Bool := tx.recipient.isNone

/-- A dynamic fee transaction pays the tip on top of the base fee, but never more than its maximal
fee; without a base fee, and for every other type, it pays the declared price. -/
def effectiveGasPrice (tx : Transaction) (baseFee : Option Word) : Word :=
  match baseFee, tx.maxFee, tx.maxTip with
  | some base, some maxFee, some tip =>
    if tx.type = dynamicFeeType then
      let sum := Word.saturatingAdd tip base
      if sum ≤ maxFee then sum else maxFee
    else tx.gasPrice
  | _, _, _ => tx.gasPrice

theorem addAll_nil (tx : Transaction) : tx.addAll [] = tx := rfl

theorem addAll_append (tx : Transaction) (a b : List Part) :
    tx.addAll (a ++ b) = (tx.addAll a).addAll b := by
  simp [addAll]

end Transaction
end EvmTrace
