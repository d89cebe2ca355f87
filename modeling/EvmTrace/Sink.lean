import EvmTrace.Bytes

/-!
# Sinks

A sink takes bytes as it likes: it may refuse a call, take a part of what it is offered, or report
more than that. Its behaviour is a script of answers, and the calls it got are kept, so what it has
accepted can be read off them.
-/
namespace EvmTrace

inductive SinkError
  | failed (message : String)
  | interrupted | wouldBlock | brokenPipe
  deriving DecidableEq, Repr

def SinkError.message : SinkError → String
  | failed message => message
  | interrupted => "operation interrupted"
  | wouldBlock => "operation would block"
  | brokenPipe => "broken pipe"

namespace Sink

/-- How a sink meets a write. -/
inductive Reaction
  | takeAll
  /-- Takes so many bytes if they are offered, and answers that count in any case. -/
  | takeSome (count : Nat)
  | refuse (e : SinkError)
  deriving DecidableEq, Repr

/-- A call and how it was answered. -/
inductive Call
  | write (offered : Bytes) (answer : Except SinkError Nat)
  | flush (answer : Except SinkError Unit)

end Sink

structure Sink where
  /-- The reactions to the next writes. -/
  reactions : List Sink.Reaction
  /-- The reaction to every write after those. -/
  lasting : Sink.Reaction
  /-- The outcomes of the next flushes; every later one succeeds. -/
  flushes : List (Option SinkError)
  /-- The calls so far, the latest first. -/
  calls : List Sink.Call

namespace Sink

/-- A sink that accepts everything. -/
def accepting : Sink := ⟨[], .takeAll, [], []⟩

def Reaction.answer (r : Reaction) (offered : Bytes) : Except SinkError Nat :=
  match r with
  | takeAll => .ok offered.length
  | takeSome count => .ok count
  | refuse e => .error e

/-- Offers some bytes; the sink answers how many it took, if it did not fail. -/
def write (s : Sink) (b : Bytes) : Except SinkError Nat × Sink :=
  let answer := (s.reactions.headD s.lasting).answer b
  (answer, { s with reactions := s.reactions.tail, calls := .write b answer :: s.calls })

def flush (s : Sink) : Except SinkError Unit × Sink :=
  let answer := match s.flushes.head? with
    | some (some e) => .error e
    | _ => .ok ()
  (answer, { s with flushes := s.flushes.tail, calls := .flush answer :: s.calls })

/-- The bytes that one call left in the sink. -/
def Call.accepted : Call → Bytes
  | write offered (.ok count) => offered.take count
  | _ => []

/-- All bytes in the sink, in order. -/
def accepted (s : Sink) : Bytes := s.calls.reverse.flatMap Call.accepted

def Call.isWrite : Call → Bool
  | write .. => true
  | flush _ => false

def writeCount (s : Sink) : Nat := s.calls.countP Call.isWrite

def flushCount (s : Sink) : Nat := s.calls.countP (!·.isWrite)

theorem accepted_write (s : Sink) (b : Bytes) :
    (s.write b).2.accepted = s.accepted ++ (Call.write b (s.write b).1).accepted := by
  simp [write, accepted]

theorem accepted_flush (s : Sink) : s.flush.2.accepted = s.accepted := by
  simp [flush, accepted, Call.accepted]

end Sink
end EvmTrace
