import EvmTrace.Recorder.Block
import EvmTrace.Recorder.Call
import EvmTrace.Recorder.Transaction

/-!
# Operations

All that a single recorder can be asked to do. A disabled recorder does nothing, except that it
announces final blocks when it was asked to show progress.
-/
namespace EvmTrace

inductive Operation
  | announce (node protocol chain : String)
  | startBlock (block : Block)
  | finalizeBlock (block : Block)
  | endBlock (block : Block) (totalDifficulty : Option Word)
  | cancelBlock (block : Block) (reason : String)
  | startTransaction (tx : Transaction) (index : UInt64) (baseFee : Option Word)
  | sender (address : Address)
  | failTransaction (reason : String)
  | endTransaction (receipt : Receipt)
  | startCall (type : CallType)
  | callParams (type : CallType) (caller target : Address) (value : Option Word) (gas : UInt64)
      (input : Bytes)
  | callWithoutCode
  | callFailed (gasLeft : UInt64) (reason : String)
  | callReverted
  | endCall (gasLeft : UInt64) (returned : Bytes)
  | endFailedCall (gasLeft : UInt64) (isRevert : Bool) (reason : String)
  | consumeGas (old amount : UInt64) (reason : GasReason)
  | refundGas (old amount : UInt64)
  | changeBalance (address : Address) (old new : Word) (reason : BalanceReason)
  | changeNonce (address : Address) (old new : UInt64)
  | changeCode (address : Address) (oldHash : Option Hash) (old : Bytes) (newHash : Hash)
      (new : Bytes)
  | changeStorage (address : Address) (key old new : Hash)
  | createAccount (address : Address)
  | suicide (address : Address) (suicided : Bool) (balance : Word)
  | keccak (hash : Hash) (preimage : Bytes)
  | log (log : Log)
  deriving DecidableEq, Repr

namespace Recorder

/-- What an operation does to a recorder that is enabled. -/
def record (r : Recorder) : Operation → Except Fault Step
  | .announce node protocol chain => .ok (r.announce node protocol chain)
  | .startBlock block => r.startBlock block
  | .finalizeBlock block => r.finalizeBlock block
  | .endBlock block totalDifficulty => r.endBlock block totalDifficulty
  | .cancelBlock block reason => r.cancelBlock block reason
  | .startTransaction tx index baseFee => r.startTransaction tx index baseFee
  | .sender address => r.sender address
  | .failTransaction reason => r.failTransaction reason
  | .endTransaction receipt => r.endTransaction receipt
  | .startCall type => .ok (r.startCall type)
  | .callParams type caller target value gas input =>
    r.callParams type caller target value gas input
  | .callWithoutCode => r.callWithoutCode
  | .callFailed gasLeft reason => r.callFailed gasLeft reason
  | .callReverted => r.callReverted
  | .endCall gasLeft returned => r.endCall gasLeft returned
  | .endFailedCall gasLeft isRevert reason => r.endFailedCall gasLeft isRevert reason
  | .consumeGas old amount reason => r.consumeGas old amount reason
  | .refundGas old amount => .ok (r.refundGas old amount)
  | .changeBalance address old new reason => .ok (r.changeBalance address old new reason)
  | .changeNonce address old new => .ok (r.changeNonce address old new)
  | .changeCode address oldHash old newHash new =>
    .ok (r.changeCode address oldHash old newHash new)
  | .changeStorage address key old new => .ok (r.changeStorage address key old new)
  | .createAccount address => .ok (r.createAccount address)
  | .suicide address suicided balance => .ok (r.suicide address suicided balance)
  | .keccak hash preimage => .ok (r.keccak hash preimage)
  | .log l => .ok (r.log l)

/-- What an operation does to a recorder that is disabled; a call it is told about has number 0. -/
def ignore (r : Recorder) : Operation → Step
  | .finalizeBlock block => if r.progress then .line r (.blockFinal block.number) else .idle r
  | .startCall _ => { Step.idle r with calls := [0] }
  | _ => .idle r

def perform (r : Recorder) (op : Operation) : Except Fault Step :=
  if r.enabled then r.record op else .ok (r.ignore op)

/-- Performs operations in order, up to the first fault. -/
def run (r : Recorder) : List Operation → Except Fault Step
  | [] => .ok (.idle r)
  | op :: ops => do
    let s ← r.perform op
    s.andThen (run · ops)

theorem perform_disabled (r : Recorder) (op : Operation) (h : r.enabled = false) :
    r.perform op = .ok (r.ignore op) := by
  simp [perform, h]

theorem recorder_ignore (r : Recorder) (op : Operation) : (r.ignore op).recorder = r := by
  cases op <;> simp [ignore, Step.idle, Step.line]
  split <;> rfl

end Recorder
end EvmTrace
