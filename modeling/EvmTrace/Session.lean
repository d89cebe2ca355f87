import EvmTrace.Instrumentation

/-!
# Sessions

A session drives any number of named tracers, the configuration that makes them, and the files
they meet. The first fault ends it, as does a configuration that cannot be set up.
-/
namespace EvmTrace

structure Session where
  tracers : List (String × Tracer)
  /-- Buffers that no draft is using. -/
  buffers : List (String × Buffer)
  instrumentation : Option Instrumentation
  files : Files

namespace Session

def start (files : Files) : Session := ⟨[], [], none, files⟩

inductive Action
  /-- Makes a tracer over a sink. -/
  | newDirect (name : String) (enabled progress : Bool) (sink : Sink) (fallback : String)
  /-- Makes a draft over a buffer that was kept, or over a new one. -/
  | newDraft (name : String) (enabled progress : Bool) (buffer : Option String)
  /-- Ends a draft and keeps its buffer under a name. -/
  | keepBuffer (name buffer : String)
  /-- Ends a tracer over a sink and gives all that the sink holds. -/
  | finish (name : String)
  | setUp (settings : Settings) (genesis : Option Json)
  | syncTracer (name : String) (sink : Sink)
  | speculativeDraft (name : String) (buffer : Option String)
  | takeBuffers
  | setBehind (isBehind : Bool)
  | overview
  | requireGenesis
  | startSpeculative (name draft : String) (tx : Transaction) (index : UInt64)
      (baseFee : Option Word)
  | flushTransaction (name draft : String)
  | flushBlock (name draft : String)
  | abandon (name : String)
  | perform (name : String) (op : Operation)

inductive Reply
  | nothing
  /-- The number of the call that was started. -/
  | call (number : Nat)
  | content (b : Bytes)
  | setupFailed (e : Instrumentation.SetupError)
  | buffers (taken : Option Buffers)
  | overview (i : Instrumentation)
  | genesis (g : Except Instrumentation.MissingGenesis Json)

/-- Why an action could not be carried out. -/
inductive Stop
  | fault (f : Fault)
  /-- There is no tracer of that name and sort, or no configuration. -/
  | unknown

/-- The session after an action, the answer, and all diagnostics of the action. -/
structure Result where
  session : Session
  reply : Reply
  notes : List Diagnostic

/-- An association list with the entry of a key put in place of all others. -/
def assign {α : Type} (key : String) (value : α) (entries : List (String × α)) :
    List (String × α) :=
  (key, value) :: entries.filter (·.1 ≠ key)

theorem lookup_assign {α : Type} (key : String) (value : α) (entries : List (String × α)) :
    (assign key value entries).lookup key = some value := by
  simp [assign]

def discard {α : Type} (key : String) (entries : List (String × α)) : List (String × α) :=
  entries.filter (·.1 ≠ key)

def put (s : Session) (name : String) (t : Tracer) : Session :=
  { s with tracers := assign name t s.tracers }

def remove (s : Session) (name : String) : Session :=
  { s with tracers := discard name s.tracers }

def tracer (s : Session) (name : String) : Except Stop Tracer :=
  match s.tracers.lookup name with
  | some t => .ok t
  | none => .error .unknown

def draft (s : Session) (name : String) : Except Stop Draft :=
  match (s.tracers.lookup name).bind Tracer.draft? with
  | some d => .ok d
  | none => .error .unknown

def configured (s : Session) : Except Stop Instrumentation :=
  match s.instrumentation with
  | some i => .ok i
  | none => .error .unknown

/-- Faults of the recorder stop the session. -/
def orStop {α : Type} : Except Fault α → Except Stop α
  | .ok x => .ok x
  | .error f => .error (.fault f)

/-- The kept buffer of a name, which is then in use, or a new buffer. -/
def useBuffer (s : Session) (name : Option String) : Buffer × Session :=
  match name.bind (s.buffers.lookup ·) with
  | some b => (b, { s with buffers := discard (name.getD "") s.buffers })
  | none => (.withCapacity Buffer.transactionCapacity, s)

/-- The names that the two buffers of the configuration are kept under. -/
def keepAll (s : Session) (b : Buffers) : Session :=
  { s with
    buffers := assign "block" b.block (assign "transaction" b.transaction s.buffers) }

def quiet (s : Session) (reply : Reply) : Result := ⟨s, reply, []⟩

/-- The outcome of an action on one tracer. -/
def settle (s : Session) (name : String) (o : Tracer.Outcome) (reply : Reply) : Result :=
  ⟨{ s.put name o.tracer with files := o.files }, reply, o.notes⟩

def act (s : Session) : Action → Except Stop Result
  | .newDirect name enabled progress sink fallback =>
    .ok ((s.put name (.direct (.fresh enabled progress) ⟨sink, fallback⟩)).quiet .nothing)
  | .newDraft name enabled progress buffer =>
    let (b, s) := s.useBuffer buffer
    .ok ((s.put name (.draft (.onBuffer b enabled progress))).quiet .nothing)
  | .keepBuffer name buffer => do
    let d ← s.draft name
    let s := { s.remove name with buffers := assign buffer d.buffer s.buffers }
    return s.quiet (.content d.buffer.content)
  | .finish name => do
    match (← s.tracer name).writer? with
    | some w => return (s.remove name).quiet (.content w.sink.accepted)
    | none => throw .unknown
  | .setUp settings genesis =>
    match Instrumentation.setUp s.files settings genesis with
    | (.ok i, notes) => .ok ⟨{ s with instrumentation := some i }, .nothing, notes⟩
    | (.error e, notes) => .ok ⟨s, .setupFailed e, notes⟩
  | .syncTracer name sink => do
    let i ← s.configured
    let (o, i) := i.syncTracer s.files sink
    return { s with instrumentation := some i }.settle name o .nothing
  | .speculativeDraft name buffer => do
    let i ← s.configured
    let (b, s) := s.useBuffer buffer
    return (s.put name (.draft (i.speculativeDraft b))).quiet .nothing
  | .takeBuffers => do
    let i ← s.configured
    let (taken, i) := i.takeBuffers
    let s := { s with instrumentation := some i }
    return (taken.elim s s.keepAll).quiet (.buffers taken)
  | .setBehind isBehind => do
    let i ← s.configured
    return { s with instrumentation := some (i.setBehind isBehind) }.quiet .nothing
  | .overview => return s.quiet (.overview (← s.configured))
  | .requireGenesis => return s.quiet (.genesis (← s.configured).requireGenesis)
  | .startSpeculative name draft tx index baseFee => do
    let t ← s.tracer name
    let d ← s.draft draft
    let (d, notes) ← orStop (t.recorder.startSpeculative d tx index baseFee)
    return ⟨s.put draft (.draft d), .nothing, notes⟩
  | .flushTransaction name draft => do
    let t ← s.tracer name
    let d ← s.draft draft
    let (o, d) ← orStop (t.flushTransaction s.files d)
    return (s.put draft (.draft d)).settle name o .nothing
  | .flushBlock name draft => do
    let t ← s.tracer name
    let d ← s.draft draft
    let (o, d) ← orStop (t.flushBlock s.files d)
    return (s.put draft (.draft d)).settle name o .nothing
  | .abandon name => do
    let d ← s.draft name
    let (d, notes) := d.abandon
    return ⟨s.put name (.draft d), .nothing, notes⟩
  | .perform name op => do
    let t ← s.tracer name
    let (o, calls) ← orStop (t.perform s.files op)
    return s.settle name o (calls.head?.elim .nothing .call)

/-- Whether no action follows an answer. -/
def Reply.isFinal : Reply → Bool
  | setupFailed _ => true
  | _ => false

/-- The results of some actions up to the last that is carried out, and why that is if an action
was stopped. -/
def run (s : Session) : List Action → List Result × Option Stop
  | [] => ([], none)
  | action :: rest =>
    match s.act action with
    | .error stop => ([], some stop)
    | .ok result =>
      if result.reply.isFinal then ([result], none)
      else
        let (results, stop) := result.session.run rest
        (result :: results, stop)

/-- The diagnostics of a result that are told. -/
def Result.told (v : Verbosity) (r : Result) : List Diagnostic := Diagnostic.told v r.notes

end Session
end EvmTrace
