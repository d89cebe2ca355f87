import EvmTrace.Delivery
import EvmTrace.Recorder.Speculation

/-!
# Tracers

A tracer is a recorder together with the place where its lines go: a sink that gets each line at
once, or a draft. What is recorded does not depend on the place.
-/
namespace EvmTrace

inductive Tracer
  | direct (recorder : Recorder) (writer : Writer)
  | draft (d : Draft)

namespace Tracer

def recorder : Tracer → Recorder
  | direct r _ => r
  | draft d => d.recorder

/-- The bytes in the sink or in the draft. -/
def content : Tracer → Bytes
  | direct _ w => w.sink.accepted
  | draft d => d.trace.bytes

def draft? : Tracer → Option Draft
  | direct .. => none
  | draft d => some d

def writer? : Tracer → Option Writer
  | direct _ w => some w
  | draft _ => none

/-- A tracer after some output, the files it wrote to, and the diagnostics on the way. -/
structure Outcome where
  tracer : Tracer
  files : Files
  notes : List Diagnostic

/-- Puts out in order; each line, and each trace that is handed on, is one delivery. -/
def emit (w : Writer) (files : Files) : List Output → Writer.Delivered
  | [] => ⟨w, files, []⟩
  | .note diagnostic :: rest =>
    let d := emit w files rest
    { d with notes := diagnostic :: d.notes }
  | .line event :: rest =>
    let first := w.deliver files event.line
    let d := emit first.writer first.files rest
    { d with notes := first.notes ++ d.notes }
  | .forward trace :: rest =>
    let first := w.deliver files trace.bytes
    let d := emit first.writer first.files rest
    { d with notes := first.notes ++ d.notes }

/-- Takes the step that its recorder made. -/
def take (t : Tracer) (files : Files) (s : Step) : Outcome :=
  match t with
  | direct _ w =>
    let d := emit w files s.output
    ⟨direct s.recorder d.writer, d.files, d.notes⟩
  | draft d => ⟨draft (d.absorb s), files, s.notes⟩

/-- Performs an operation, and gives the numbers of the calls it started. -/
def perform (t : Tracer) (files : Files) (op : Operation) :
    Except Fault (Outcome × List Nat) := do
  let s ← t.recorder.perform op
  return (t.take files s, s.calls)

def flushTransaction (t : Tracer) (files : Files) (d : Draft) :
    Except Fault (Outcome × Draft) := do
  let (s, d) ← t.recorder.flushTransaction d
  return (t.take files s, d)

def flushBlock (t : Tracer) (files : Files) (d : Draft) : Except Fault (Outcome × Draft) := do
  let (s, d) ← t.recorder.flushBlock d
  return (t.take files s, d)

theorem recorder_take (t : Tracer) (files : Files) (s : Step) :
    (t.take files s).tracer.recorder = s.recorder := by
  cases t <;> rfl

end Tracer
end EvmTrace
