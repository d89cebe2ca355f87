import EvmTrace.Diagnostic

/-!
# Delivery

A writer hands byte strings to a sink that may be failing. It offers what is left a limited number
of times; if that does not get everything through, it leaves a notice in a fallback file and in
the sink itself. Nothing of this reaches the recorder, since the node has to go on.
-/
namespace EvmTrace

structure Writer where
  sink : Sink
  /-- The path of the fallback file. -/
  fallback : String

namespace Writer

def attemptLimit : Nat := 10

def defaultFallback : String := "/tmp/firehose_writer_failed_print.log"

/-- Where a series of attempts stands. -/
structure Progress where
  sink : Sink
  remaining : Bytes
  lastError : Option SinkError

/-- Offers what is left once; an answer beyond the offer counts as the whole offer. -/
def attempt (p : Progress) : Progress :=
  match p.sink.write p.remaining with
  | (.ok count, sink) => { p with sink, remaining := p.remaining.drop count }
  | (.error e, sink) => { p with sink, lastError := some e }

/-- Makes attempts until nothing is left, up to the limit. -/
def attempts : (limit : Nat) → Progress → Progress
  | 0, p => p
  | limit + 1, p =>
    let p := attempt p
    if p.remaining.isEmpty then p else attempts limit p

def rejection (p : Progress) : Rejection :=
  match p.lastError with
  | some e => .sinkError e
  | none => .shortWrite p.remaining.length

/-- What the fallback file and the sink are told about a delivery that was given up. -/
def notice (r : Rejection) : Bytes :=
  Bytes.ofText ("\nFIREHOSE FAILED WRITING " ++ toString attemptLimit ++ "x: " ++ r.message ++ "\n")

/-- The outcome of a delivery. -/
structure Delivered where
  writer : Writer
  files : Files
  notes : List Diagnostic

/-- Flushes the sink behind a complete delivery. -/
def complete (w : Writer) (files : Files) (sink : Sink) : Delivered :=
  match sink.flush with
  | (.ok (), sink) => ⟨{ w with sink }, files, []⟩
  | (.error e, sink) => ⟨{ w with sink }, files, [.flushFailed e]⟩

/-- Leaves the notice in the fallback file, and offers it to the sink once. -/
def giveUp (w : Writer) (files : Files) (p : Progress) : Delivered :=
  let text := notice (rejection p)
  let told := .deliveryFailed (rejection p) attemptLimit p.remaining.length w.fallback
  let (_, sink) := p.sink.write text
  match files.append w.fallback text with
  | .ok files => ⟨{ w with sink }, files, [told]⟩
  | .error e => ⟨{ w with sink }, files, [told, .fallbackFailed w.fallback e]⟩

/-- Delivers a byte string; the empty one needs no call. -/
def deliver (w : Writer) (files : Files) (b : Bytes) : Delivered :=
  if b.isEmpty then ⟨w, files, []⟩
  else
    let p := attempts attemptLimit ⟨w.sink, b, none⟩
    if p.remaining.isEmpty then complete w files p.sink else giveUp w files p

theorem sink_complete (w : Writer) (files : Files) (sink : Sink) :
    (complete w files sink).writer.sink = sink.flush.2 := by
  unfold complete
  split <;> simp_all

theorem files_complete (w : Writer) (files : Files) (sink : Sink) :
    (complete w files sink).files = files := by
  unfold complete
  split <;> rfl

theorem deliver_nil (w : Writer) (files : Files) : w.deliver files [] = ⟨w, files, []⟩ := rfl

end Writer
end EvmTrace
