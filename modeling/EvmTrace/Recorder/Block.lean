import EvmTrace.Recorder.Basic

/-!
# Recording blocks

Blocks do not nest. A block is started, may be announced as final, and is ended or cancelled; only
a cancellation may leave a transaction or a call unfinished.
-/
namespace EvmTrace.Recorder

/-- Opens the trace with the versions of all that took part in it. -/
def announce (r : Recorder) (node protocol chain : String) : Step :=
  .line r (.announcement protocol chain node)

def startBlock (r : Recorder) (b : Block) : Except Fault Step := do
  r.requireOutsideBlock
  r.requireNoCall .startBlock
  return .noted { r with block := some ⟨some b.number⟩, nextLog := 0 }
    (.blockStarted b.number b.hash) (.blockStart b.number)

def finalizeBlock (r : Recorder) (b : Block) : Except Fault Step := do
  r.requireInBlock
  r.requireNoCall .finalizeBlock
  return .line r (.blockFinal b.number)

def endBlock (r : Recorder) (b : Block) (totalDifficulty : Option Word) : Except Fault Step := do
  r.requireInBlock
  r.requireOutsideTransaction
  r.requireNoCall .endBlock
  return .noted r.leaveBlock (.blockEnded b.number b.size) (.blockEnd b totalDifficulty)

def cancelBlock (r : Recorder) (b : Block) (reason : String) : Except Fault Step := do
  r.requireInBlock
  return .noted r.leaveTransaction.leaveBlock (.blockCancelled b.number reason)
    (.blockCancel b.number reason)

end EvmTrace.Recorder
