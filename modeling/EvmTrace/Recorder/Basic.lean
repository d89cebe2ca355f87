import EvmTrace.CallStack
import EvmTrace.Diagnostic
import EvmTrace.Event

/-!
# Recorders

A recorder follows the node through blocks, transactions and calls. An operation either changes the
recorder and puts out lines and diagnostics, or it finds that the node calls out of order: then the
trace could not be a valid nesting any more, and the recorder stops with a fault.
-/
namespace EvmTrace

/-- The block that a recorder is in. -/
structure BlockScope where
  /-- Unknown to a transaction that was started for a recorder outside all blocks. -/
  number : Option UInt64
  deriving DecidableEq, Repr

structure Recorder where
  enabled : Bool
  /-- Announce final blocks even when disabled. -/
  progress : Bool
  block : Option BlockScope
  /-- The number of the next log of the block. It stands for a counter of 64 bits and agrees with
  one below `2 ^ 64`. -/
  nextLog : Nat
  inTransaction : Bool
  calls : CallStack
  deriving DecidableEq, Repr

/-- Moments at which no call may be open. -/
inductive Boundary
  | startBlock | finalizeBlock | endBlock | startTransaction | endTransaction
  deriving DecidableEq, Repr

def Boundary.describe : Boundary → String
  | startBlock => "starting a block"
  | finalizeBlock => "finalizing a block"
  | endBlock => "ending a block"
  | startTransaction => "starting a transaction"
  | endTransaction => "ending a transaction"

/-- What can only be told about an open call. -/
inductive CallNote
  | params | withoutCode | failure | revert
  deriving DecidableEq, Repr

def CallNote.describe : CallNote → String
  | params => "call params"
  | withoutCode => "a call without code"
  | failure => "a call failure"
  | revert => "a call revert"

/-- How a node can call out of order. -/
inductive Violation
  | outsideBlock | insideBlock | outsideTransaction | insideTransaction
  | openCalls (boundary : Boundary)
  | noOpenCall (note : CallNote)
  | closing (e : CallStack.CloseError)
  | gasOverdrawn (old amount : UInt64) (reason : GasReason)
  | unflushedTransaction | openTransaction | otherBlock | openBlock
  deriving DecidableEq, Repr

/-- A violation and the recorder that met it. -/
structure Fault where
  violation : Violation
  recorder : Recorder
  deriving DecidableEq, Repr

def Violation.describe (depth : Nat) : Violation → String
  | outsideBlock => "caller expected to be in block state but we were not, this is a bug"
  | insideBlock => "caller expected to not be in block state but we were, this is a bug"
  | outsideTransaction =>
    "caller expected to be in transaction state but we were not, this is a bug"
  | insideTransaction =>
    "caller expected to not be in transaction state but we were, this is a bug"
  | openCalls boundary =>
    toString depth ++ " call(s) still open when " ++ boundary.describe ++
      ", every started call must be ended first"
  | noOpenCall note =>
    "no call open when recording " ++ note.describe ++ ", the call must be started first"
  | closing e => "ending call failed: " ++ e.message
  | gasOverdrawn old amount reason =>
    "consuming " ++ toString amount ++ " gas out of " ++ toString old ++ " available (" ++
      reason.word ++ ")"
  | unflushedTransaction =>
    "starting a speculative transaction before the previous one was flushed or abandoned, " ++
      "this is a bug"
  | openTransaction => "flushing a transaction that has not ended, this is a bug"
  | otherBlock => "flushing a transaction recorded for another block, this is a bug"
  | openBlock => "flushing a block that has not ended, this is a bug"

namespace Recorder

/-- A recorder before its first block. -/
def fresh (enabled progress : Bool) : Recorder := ⟨enabled, progress, none, 0, false, .empty⟩

def inBlock (r : Recorder) : Bool := r.block.isSome

/-- The number of the block, where there is one and it is known. -/
def blockNumber (r : Recorder) : Option UInt64 := r.block.bind BlockScope.number

def depth (r : Recorder) : Nat := r.calls.depth

/-- The number of the innermost call, 0 outside all calls. -/
def activeCall (r : Recorder) : Nat := r.calls.active

def leaveBlock (r : Recorder) : Recorder := { r with block := none, nextLog := 0 }

/-- Forgets the transaction and all its calls. -/
def leaveTransaction (r : Recorder) : Recorder :=
  { r with inTransaction := false, calls := .empty }

end Recorder

def Fault.message (f : Fault) : String :=
  let r := f.recorder
  let place := match r.blockNumber with
    | some number => " at block #" ++ toString number
    | none => ""
  "Firehose invalid state: " ++ f.violation.describe r.depth ++ place ++
    " (enabled=" ++ Diagnostic.showBool r.enabled ++
    ", in_block=" ++ Diagnostic.showBool r.inBlock ++
    ", in_transaction=" ++ Diagnostic.showBool r.inTransaction ++
    ", call_depth=" ++ toString r.depth ++ ")"

/-- What an operation puts out. -/
inductive Output
  | line (event : Event)
  /-- The lines of a flushed recording, handed on at once. -/
  | forward (trace : Trace)
  | note (diagnostic : Diagnostic)
  deriving DecidableEq, Repr

namespace Output

def trace : Output → Trace
  | line event => [event]
  | forward trace => trace
  | note _ => []

/-- The pieces in which it gets into a buffer. -/
def pieces : Output → List Bytes
  | line event => event.pieces
  | forward trace => [trace.bytes]
  | note _ => []

theorem flatten_pieces (o : Output) : o.pieces.flatten = o.trace.bytes := by
  cases o with
  | line event => simp [pieces, trace, Trace.bytes, event.flatten_pieces]
  | forward trace => simp [pieces, Output.trace]
  | note _ => rfl

def notes : Output → List Diagnostic
  | note diagnostic => [diagnostic]
  | _ => []

end Output

/-- What an operation did. -/
structure Step where
  recorder : Recorder
  output : List Output
  /-- The numbers of the calls that were started. -/
  calls : List Nat
  deriving DecidableEq, Repr

namespace Step

/-- An operation that did nothing. -/
def idle (r : Recorder) : Step := ⟨r, [], []⟩

/-- An operation that put out one line and nothing else. -/
def line (r : Recorder) (event : Event) : Step := ⟨r, [.line event], []⟩

/-- An operation that told a diagnostic ahead of its line. -/
def noted (r : Recorder) (diagnostic : Diagnostic) (event : Event) : Step :=
  ⟨r, [.note diagnostic, .line event], []⟩

/-- Goes on with another operation. -/
def andThen (s : Step) (next : Recorder → Except Fault Step) : Except Fault Step := do
  let t ← next s.recorder
  return ⟨t.recorder, s.output ++ t.output, s.calls ++ t.calls⟩

def trace (s : Step) : Trace := s.output.flatMap Output.trace

def pieces (s : Step) : List Bytes := s.output.flatMap Output.pieces

def notes (s : Step) : List Diagnostic := s.output.flatMap Output.notes

theorem flatten_pieces (s : Step) : s.pieces.flatten = s.trace.bytes := by
  unfold pieces trace
  induction s.output with
  | nil => rfl
  | cons o rest ih => simp [ih, o.flatten_pieces, Trace.bytes_append]

@[simp] theorem trace_idle (r : Recorder) : (idle r).trace = [] := rfl

@[simp] theorem trace_line (r : Recorder) (e : Event) : (line r e).trace = [e] := rfl

@[simp] theorem trace_noted (r : Recorder) (d : Diagnostic) (e : Event) :
    (noted r d e).trace = [e] := rfl

end Step

namespace Recorder

/-- Stops with a fault unless the condition holds. -/
def require (r : Recorder) (condition : Bool) (violation : Violation) : Except Fault Unit :=
  if condition then .ok () else .error ⟨violation, r⟩

theorem require_eq_ok {r : Recorder} {condition : Bool} {v : Violation} {u : Unit} :
    r.require condition v = .ok u ↔ condition = true := by
  cases condition <;> simp [require]

def requireInBlock (r : Recorder) : Except Fault Unit := r.require r.inBlock .outsideBlock

def requireOutsideBlock (r : Recorder) : Except Fault Unit := r.require (!r.inBlock) .insideBlock

def requireInTransaction (r : Recorder) : Except Fault Unit :=
  r.require r.inTransaction .outsideTransaction

def requireOutsideTransaction (r : Recorder) : Except Fault Unit :=
  r.require (!r.inTransaction) .insideTransaction

def requireNoCall (r : Recorder) (boundary : Boundary) : Except Fault Unit :=
  r.require r.calls.isEmpty (.openCalls boundary)

def requireCall (r : Recorder) (note : CallNote) : Except Fault Unit :=
  r.require (!r.calls.isEmpty) (.noOpenCall note)

end Recorder
end EvmTrace
