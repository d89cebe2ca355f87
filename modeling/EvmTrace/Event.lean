import EvmTrace.Field
import EvmTrace.Payload
import EvmTrace.Transaction

/-!
# Events

An event is what one line of the trace tells. Events of a call carry the number of the call they
belong to, or 0 outside all calls. A trace is a list of events, and its bytes are their lines.
-/
namespace EvmTrace

/-- What the line of a transaction tells about it. -/
structure TransactionStart where
  hash : Hash
  recipient : Option Address
  value : Word
  v : Bytes
  r : Bytes
  s : Bytes
  gasLimit : UInt64
  /-- The price in effect. -/
  gasPrice : Word
  nonce : UInt64
  input : Bytes
  /-- The access list in its binary form. -/
  accessList : Bytes
  maxFee : Option Word
  maxTip : Option Word
  type : UInt8
  index : UInt64
  deriving DecidableEq, Repr

def TransactionStart.ofTransaction (tx : Transaction) (index : UInt64) (baseFee : Option Word) :
    TransactionStart where
  hash := tx.hash
  recipient := tx.recipient
  value := tx.value
  v := tx.v
  r := tx.r
  s := tx.s
  gasLimit := tx.gasLimit
  gasPrice := tx.effectiveGasPrice baseFee
  nonce := tx.nonce
  input := tx.input
  accessList := AccessList.encode tx.accessList
  maxFee := tx.maxFee
  maxTip := tx.maxTip
  type := tx.type
  index := index

inductive Event
  | announcement (protocol chain node : String)
  | blockStart (number : UInt64)
  | blockFinal (number : UInt64)
  | blockEnd (block : Block) (totalDifficulty : Option Word)
  | blockCancel (number : UInt64) (reason : String)
  | transactionStart (start : TransactionStart)
  | sender (address : Address)
  | transactionEnd (receipt : Receipt)
  | transactionFailure (reason : String)
  | callStart (type : CallType) (call : Nat)
  | callParams (type : CallType) (call : Nat) (caller target : Address) (value : Option Word)
      (gas : UInt64) (input : Bytes)
  | callWithoutCode (call : Nat)
  | callFailure (call : Nat) (gasLeft : UInt64) (reason : String)
  | callRevert (call : Nat)
  | callEnd (call : Nat) (gasLeft : UInt64) (returned : Bytes)
  | gasChange (call : Nat) (old new : UInt64) (reason : GasReason)
  | balanceChange (call : Nat) (address : Address) (old new : Word) (reason : BalanceReason)
  | nonceChange (call : Nat) (address : Address) (old new : UInt64)
  /-- The old hash is absent for an account that never had code. -/
  | codeChange (call : Nat) (address : Address) (oldHash : Option Hash) (old : Bytes)
      (newHash : Hash) (new : Bytes)
  | storageChange (call : Nat) (address : Address) (key old new : Hash)
  | newAccount (call : Nat) (address : Address)
  | suicide (call : Nat) (address : Address) (suicided : Bool) (balance : Word)
  | keccak (call : Nat) (hash : Hash) (preimage : Bytes)
  /-- Logs are numbered across their block. -/
  | log (call index : Nat) (log : Log)
  deriving DecidableEq, Repr

namespace TransactionStart

def fields (t : TransactionStart) : List Field :=
  [.hash t.hash, .recipient t.recipient, .word (some t.value), .bytes t.v, .bytes t.r, .bytes t.s,
   .count t.gasLimit.toNat, .word (some t.gasPrice), .count t.nonce.toNat, .bytes t.input,
   .bytes t.accessList, .word t.maxFee, .word t.maxTip, .count t.type.toNat,
   .count t.index.toNat]

end TransactionStart

namespace Event

/-- The word that tells the kinds of lines apart. -/
def kind : Event → String
  | announcement .. => "INIT"
  | blockStart .. => "BEGIN_BLOCK"
  | blockFinal .. => "FINALIZE_BLOCK"
  | blockEnd .. => "END_BLOCK"
  | blockCancel .. => "CANCEL_BLOCK"
  | transactionStart .. => "BEGIN_APPLY_TRX"
  | sender .. => "TRX_FROM"
  | transactionEnd .. => "END_APPLY_TRX"
  | transactionFailure .. => "FAILED_APPLY_TRX"
  | callStart .. => "EVM_RUN_CALL"
  | callParams .. => "EVM_PARAM"
  | callWithoutCode .. => "ACCOUNT_WITHOUT_CODE"
  | callFailure .. => "EVM_CALL_FAILED"
  | callRevert .. => "EVM_REVERTED"
  | callEnd .. => "EVM_END_CALL"
  | gasChange .. => "GAS_CHANGE"
  | balanceChange .. => "BALANCE_CHANGE"
  | nonceChange .. => "NONCE_CHANGE"
  | codeChange .. => "CODE_CHANGE"
  | storageChange .. => "STORAGE_CHANGE"
  | newAccount .. => "CREATED_ACCOUNT"
  | suicide .. => "SUICIDE_CHANGE"
  | keccak .. => "EVM_KECCAK"
  | log .. => "ADD_LOG"

/-- The fields behind the kind. -/
def fields : Event → List Field
  | announcement protocol chain node => [.text protocol, .text chain, .text node]
  | blockStart number => [.count number.toNat]
  | blockFinal number => [.count number.toNat]
  | blockEnd block totalDifficulty =>
    [.count block.number.toNat, .count block.size.toNat,
     .json (Payload.endedBlock block totalDifficulty)]
  | blockCancel number reason => [.count number.toNat, .text reason]
  | transactionStart start => start.fields
  | sender address => [.address address]
  | transactionEnd receipt =>
    [.count receipt.gasUsed.toNat, .bytes receipt.postState,
     .count receipt.cumulativeGasUsed.toNat, .bytes receipt.bloom.toList,
     .json (Payload.logs receipt.logs)]
  | transactionFailure reason => [.text reason]
  | callStart type call => [.callType type, .count call]
  | callParams type call caller target value gas input =>
    [.callType type, .count call, .address caller, .address target, .word value,
     .count gas.toNat, .bytes input]
  | callWithoutCode call => [.count call]
  | callFailure call gasLeft reason => [.count call, .count gasLeft.toNat, .text reason]
  | callRevert call => [.count call]
  | callEnd call gasLeft returned => [.count call, .count gasLeft.toNat, .bytes returned]
  | gasChange call old new reason =>
    [.count call, .count old.toNat, .count new.toNat, .gasReason reason]
  | balanceChange call address old new reason =>
    [.count call, .address address, .word (some old), .word (some new), .balanceReason reason]
  | nonceChange call address old new =>
    [.count call, .address address, .count old.toNat, .count new.toNat]
  | codeChange call address oldHash old newHash new =>
    [.count call, .address address, .bytes (oldHash.elim [] Vector.toList), .bytes old,
     .hash newHash, .bytes new]
  | storageChange call address key old new =>
    [.count call, .address address, .hash key, .hash old, .hash new]
  | newAccount call address => [.count call, .address address]
  | suicide call address suicided balance =>
    [.count call, .address address, .flag suicided, .word (some balance)]
  | keccak call hash preimage => [.count call, .hash hash, .bytes preimage]
  | log call index l =>
    [.count call, .count index, .address l.address, .hashes l.topics, .bytes l.data]

/-- The line that tells the event. -/
def line (e : Event) : Bytes := Line.ofFields (.text e.kind :: e.fields)

/-- The pieces that the line is written in. -/
def pieces (e : Event) : List Bytes := Line.pieces (.text e.kind :: e.fields)

theorem flatten_pieces (e : Event) : e.pieces.flatten = e.line := Line.flatten_pieces _

end Event

abbrev Trace := List Event

def Trace.bytes (t : Trace) : Bytes := t.flatMap Event.line

theorem Trace.bytes_append (a b : Trace) : Trace.bytes (a ++ b) = a.bytes ++ b.bytes := by
  simp [Trace.bytes]

end EvmTrace
