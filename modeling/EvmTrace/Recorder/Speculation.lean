import EvmTrace.Buffer
import EvmTrace.Recorder.Operation

/-!
# Speculation

A draft is a recorder whose lines are held back. A transaction can be recorded in a draft as part
of the block that another recorder is in; flushing it hands its lines on in one piece, abandoning
it drops them. Whole blocks can be held back in the same way.
-/
namespace EvmTrace

structure Draft where
  recorder : Recorder
  /-- The lines that are held back. -/
  trace : Trace
  /-- The capacity of the buffer they are in. -/
  capacity : Nat
  deriving DecidableEq, Repr

namespace Draft

/-- An empty draft over a buffer, whatever that holds. -/
def onBuffer (b : Buffer) (enabled progress : Bool) : Draft :=
  ⟨.fresh enabled progress, [], b.capacity⟩

def buffer (d : Draft) : Buffer := ⟨d.trace.bytes, d.capacity⟩

/-- Holds back what an operation puts out. -/
def absorb (d : Draft) (s : Step) : Draft :=
  ⟨s.recorder, d.trace ++ s.trace, (d.buffer.appendAll s.pieces).capacity⟩

@[simp] theorem trace_absorb (d : Draft) (s : Step) : (d.absorb s).trace = d.trace ++ s.trace :=
  rfl

/-- The buffer behind a draft gets the pieces of what the draft holds back. -/
theorem buffer_absorb (d : Draft) (s : Step) :
    (d.absorb s).buffer = d.buffer.appendAll s.pieces := by
  have h := d.buffer.content_appendAll s.pieces
  rw [s.flatten_pieces] at h
  simp only [buffer, absorb, Trace.bytes_append]
  rw [← show d.buffer.content = d.trace.bytes from rfl, ← h]
  rfl

/-- Lends the scope of another recorder's block, where its logs are numbered on. -/
def enterBlock (d : Draft) (r : Recorder) : Except Fault Draft := do
  d.recorder.require (!d.recorder.inBlock) .unflushedTransaction
  return { d with
    recorder := { d.recorder with block := some ⟨r.blockNumber⟩, nextLog := r.nextLog } }

/-- Drops everything, and with it the transaction and the block scope. -/
def abandon (d : Draft) : Draft × List Diagnostic :=
  ({ d with recorder := d.recorder.leaveTransaction.leaveBlock, trace := [] },
   [.transactionAbandoned d.buffer.length])

end Draft

namespace Recorder

/-- Starts a transaction in a draft, as part of the recorder's block. A recorder that is disabled
need not be in a block. -/
def startSpeculative (r : Recorder) (d : Draft) (tx : Transaction) (index : UInt64)
    (baseFee : Option Word) : Except Fault (Draft × List Diagnostic) := do
  if r.enabled then r.requireInBlock
  let d ← if d.recorder.enabled then d.enterBlock r else pure d
  let s ← d.recorder.perform (.startTransaction tx index baseFee)
  return (d.absorb s, s.notes)

/-- Hands the lines of a finished transaction on, and takes over the numbering of its logs. The
draft is ready for the next transaction. -/
def flushTransaction (r : Recorder) (d : Draft) : Except Fault (Step × Draft) := do
  if ¬ r.enabled then return (.idle r, { d with recorder := d.recorder.leaveBlock })
  r.requireInBlock
  d.recorder.require (!d.recorder.inTransaction) .openTransaction
  d.recorder.require (!d.recorder.inBlock || d.recorder.blockNumber == r.blockNumber) .otherBlock
  let r := if d.recorder.inBlock then { r with nextLog := d.recorder.nextLog } else r
  return (⟨r, [.note (.transactionFlushed d.buffer.length), .forward d.trace], []⟩,
    { d with recorder := d.recorder.leaveBlock, trace := [] })

/-- Hands the lines of finished blocks on. -/
def flushBlock (r : Recorder) (d : Draft) : Except Fault (Step × Draft) := do
  if ¬ r.enabled then return (.idle r, d)
  d.recorder.require (!d.recorder.inBlock) .openBlock
  return (⟨r, [.note (.blockFlushed d.buffer.length), .forward d.trace], []⟩,
    { d with trace := [] })

end Recorder
end EvmTrace
