import EvmTrace.Recorder.Basic

/-!
# Recording transactions

A transaction runs inside a block and numbers its calls from 1 on. It is ended, or fails as a
whole, and only a failure may leave calls open.
-/
namespace EvmTrace.Recorder

def startTransaction (r : Recorder) (tx : Transaction) (index : UInt64)
    (baseFee : Option Word) : Except Fault Step := do
  r.requireInBlock
  r.requireOutsideTransaction
  r.requireNoCall .startTransaction
  return .noted { r with inTransaction := true, calls := .empty }
    (.transactionStarted index tx.hash)
    (.transactionStart (.ofTransaction tx index baseFee))

def sender (r : Recorder) (address : Address) : Except Fault Step := do
  r.requireInTransaction
  return .line r (.sender address)

def failTransaction (r : Recorder) (reason : String) : Except Fault Step := do
  r.requireInTransaction
  return .noted r.leaveTransaction (.transactionFailed reason) (.transactionFailure reason)

def endTransaction (r : Recorder) (receipt : Receipt) : Except Fault Step := do
  r.requireInTransaction
  r.requireNoCall .endTransaction
  return ⟨r.leaveTransaction,
    [.line (.transactionEnd receipt), .note (.transactionEnded receipt.gasUsed)], []⟩

end EvmTrace.Recorder
