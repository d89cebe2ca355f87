import EvmTrace.GenesisReport
import EvmTrace.Session
import EvmTrace.Proofs.Consumer
import EvmTrace.Proofs.Ensemble
import Mathlib.Data.List.Basic

/-!
# Diagnostics stay apart from the trace

The level of verbosity decides only which of the gated diagnostics are told. Recorders and drafts
put those out, each at its place among the lines; the diagnostics of deliveries, of the set up and
of genesis reports have no gate. So a session does the same at every level, and what is told grows
with the level.
-/
namespace EvmTrace

/-- The level that a value of the environment variable sets. -/
def Verbosity.ofVariable (value : Option String) : Verbosity := value.elim .silent .ofName

namespace Diagnostic

def isGated (d : Diagnostic) : Bool := d.gate.isSome

/-- Whether a level opens the gate of a diagnostic that has one. -/
def passes (v : Verbosity) (d : Diagnostic) : Bool := d.gate.any v.allows

/-- A diagnostic is told unless its gate is above the level. -/
theorem isTold_eq (v : Verbosity) (d : Diagnostic) :
    d.isTold v = d.gate.all (·.rank ≤ v.rank) := by
  cases d <;> rfl

theorem passes_eq {d : Diagnostic} (h : d.isGated = true) (v : Verbosity) :
    d.passes v = d.isTold v := by
  obtain ⟨wanted, hgate⟩ := Option.isSome_iff_exists.mp h
  simp [passes, isTold, hgate]

theorem isTold_of_not_gated {d : Diagnostic} (h : d.isGated = false) (v : Verbosity) :
    d.isTold v = true := by
  rw [isTold_eq, Option.isSome_eq_false_iff.mp h |> Option.isNone_iff_eq_none.mp]
  rfl

theorem told_full (notes : List Diagnostic) : told .full notes = notes :=
  List.filter_eq_self.mpr fun d _ => by cases d <;> rfl

/-- At a higher level no less is told, in the same order. -/
theorem told_sublist {v w : Verbosity} (h : v.rank ≤ w.rank) (notes : List Diagnostic) :
    (told v notes).Sublist (told w notes) := by
  refine List.monotone_filter_right notes fun d hd => ?_
  rw [isTold_eq] at hd ⊢
  cases hgate : d.gate with
  | none => rfl
  | some wanted =>
    rw [hgate, Option.all_some, decide_eq_true_eq] at hd
    exact decide_eq_true (Nat.le_trans hd h)

theorem filter_ungated_told (v : Verbosity) (notes : List Diagnostic) :
    (told v notes).filter (·.gate.isNone) = notes.filter (·.gate.isNone) := by
  rw [told, List.filter_filter]
  refine List.filter_congr fun d _ => ?_
  rw [isTold_eq]
  cases d.gate <;> simp

end Diagnostic

/-! ## Recorders at a level -/

/-- Whether an output is put out at a level. -/
def Output.isOpen (v : Verbosity) : Output → Bool
  | .note diagnostic => diagnostic.passes v
  | _ => true

namespace Step

/-- What a step of a recorder comes to at a level. -/
def muted (v : Verbosity) (s : Step) : Step := { s with output := s.output.filter (·.isOpen v) }

/-- All diagnostics of the step have a gate. -/
def Gated (s : Step) : Prop := ∀ d ∈ s.notes, d.isGated = true

variable {s t : Step} {r : Recorder} {d : Diagnostic} {e : Event}

theorem gated_idle : (idle r).Gated := by simp [Gated, notes, idle]

theorem gated_line : (line r e).Gated := by simp [Gated, notes, line, Output.notes]

theorem gated_noted (h : d.isGated = true) : (noted r d e).Gated := by
  simpa [Gated, notes, noted, Output.notes] using h

theorem Gated.followedBy (hs : s.Gated) (ht : t.Gated) : (s.followedBy t).Gated := by
  intro d hd
  rw [notes, Step.followedBy, List.flatMap_append] at hd
  exact (List.mem_append.mp hd).elim (hs d) (ht d)

/-- What does not look at diagnostics does not depend on the level. -/
theorem flatMap_isOpen {α : Type} {f : Output → List α} (h : ∀ d, f (.note d) = [])
    (v : Verbosity) (output : List Output) :
    (output.filter (·.isOpen v)).flatMap f = output.flatMap f := by
  induction output with
  | nil => rfl
  | cons o output ih =>
    cases o with
    | note d =>
      rw [List.filter_cons, List.flatMap_cons, h, List.nil_append]
      split
      · rw [List.flatMap_cons, h, ih, List.nil_append]
      · exact ih
    | line e => rw [List.filter_cons_of_pos rfl, List.flatMap_cons, List.flatMap_cons, ih]
    | forward t => rw [List.filter_cons_of_pos rfl, List.flatMap_cons, List.flatMap_cons, ih]

theorem trace_muted (v : Verbosity) (s : Step) : (s.muted v).trace = s.trace :=
  flatMap_isOpen (fun _ => rfl) v s.output

theorem pieces_muted (v : Verbosity) (s : Step) : (s.muted v).pieces = s.pieces :=
  flatMap_isOpen (fun _ => rfl) v s.output

theorem notes_muted (h : s.Gated) (v : Verbosity) :
    (s.muted v).notes = Diagnostic.told v s.notes := by
  have hpasses : s.notes.filter (Diagnostic.passes v) = Diagnostic.told v s.notes :=
    List.filter_congr fun d hd => Diagnostic.passes_eq (h d hd) v
  rw [← hpasses, notes, notes, muted, List.filter_flatMap]
  clear h hpasses
  induction s.output with
  | nil => rfl
  | cons o output ih =>
    rw [List.filter_cons, List.flatMap_cons, ← ih]
    cases o with
    | note d => cases hopen : d.passes v <;> simp [Output.isOpen, Output.notes, hopen]
    | line e => rfl
    | forward t => rfl

end Step

namespace Recorder

variable {r : Recorder} {s : Step} {op : Operation}

theorem gated_failedCall (r : Recorder) (call : Nat) (outer : List Nat) (gasLeft : UInt64)
    (isRevert : Bool) (reason : String) :
    (r.failedCall call outer gasLeft isRevert reason).Gated := by
  unfold failedCall
  cases isRevert with
  | true => exact (Step.gated_line.followedBy Step.gated_line).followedBy (Step.gated_noted rfl)
  | false =>
    refine (Step.gated_line.followedBy ?_).followedBy (Step.gated_noted rfl)
    split
    · exact Step.gated_idle
    · exact Step.gated_noted rfl

theorem gated_record (h : r.record op = .ok s) : s.Gated := by
  have hguard {c : Bool} {v : Violation} {next : Except Fault Step}
      (h : (r.require c v >>= fun _ => next) = .ok s) : next = .ok s :=
    (bind_eq_ok.mp h).elim fun _ hnext => hnext.2
  have hdone {t : Step} (h : Except.ok t = (.ok s : Except Fault Step)) (ht : t.Gated) :
      s.Gated := by
    obtain rfl := Except.ok.inj h
    exact ht
  cases op with
  | cancelBlock | failTransaction => exact hdone (hguard h) (Step.gated_noted rfl)
  | sender | callParams | callWithoutCode | callFailed | callReverted =>
    exact hdone (hguard h) Step.gated_line
  | startBlock => exact hdone (hguard (hguard h)) (Step.gated_noted rfl)
  | finalizeBlock => exact hdone (hguard (hguard h)) Step.gated_line
  | endTransaction =>
    refine hdone (hguard (hguard h)) fun d hd => ?_
    obtain rfl := List.mem_singleton.mp hd
    rfl
  | endBlock | startTransaction =>
    exact hdone (hguard (hguard (hguard h))) (Step.gated_noted rfl)
  | startCall type =>
    refine hdone h fun d hd => ?_
    obtain rfl := List.mem_singleton.mp hd
    rfl
  | endCall gasLeft returned =>
    obtain ⟨call, outer, -, rfl⟩ := endCall_eq_ok.mp h
    exact Step.gated_noted rfl
  | endFailedCall gasLeft isRevert reason =>
    obtain ⟨call, outer, -, rfl⟩ := endFailedCall_eq_ok.mp h
    exact gated_failedCall _ _ _ _ _ _
  | consumeGas old amount reason =>
    rcases consumeGas_eq_ok.mp h with ⟨-, rfl⟩ | ⟨-, -, -, rfl⟩
    · exact Step.gated_idle
    · exact Step.gated_noted rfl
  | refundGas old amount =>
    refine hdone h ?_
    unfold refundGas
    split
    · exact Step.gated_idle
    · exact Step.gated_line
  | changeBalance address old new reason =>
    refine hdone h ?_
    unfold changeBalance
    split
    · exact Step.gated_idle
    · exact Step.gated_noted rfl
  | keccak => exact hdone h (Step.gated_noted rfl)
  | announce | changeNonce | changeCode | changeStorage | createAccount | suicide | log =>
    exact hdone h Step.gated_line

theorem gated_ignore (r : Recorder) (op : Operation) : (r.ignore op).Gated := by
  have hidle : ∀ calls, Step.Gated { Step.idle r with calls } := fun _ => Step.gated_idle (r := r)
  cases op with
  | finalizeBlock block =>
    simp only [ignore]
    split
    · exact Step.gated_line
    · exact hidle []
  | startCall type => exact hidle [0]
  | _ => exact hidle []

/-- An operation tells nothing without a gate. -/
theorem gated_perform (h : r.perform op = .ok s) : s.Gated := by
  cases henabled : r.enabled with
  | false =>
    rw [perform_disabled r op henabled] at h
    obtain rfl := Except.ok.inj h
    exact r.gated_ignore op
  | true =>
    rw [perform_enabled henabled] at h
    exact gated_record h

theorem gated_flushTransaction {d : Draft} {done : Step × Draft}
    (h : r.flushTransaction d = .ok done) : done.1.Gated := by
  cases henabled : r.enabled with
  | false =>
    rw [flushTransaction_disabled henabled] at h
    obtain rfl := Except.ok.inj h
    exact Step.gated_idle
  | true =>
    obtain ⟨-, -, -, hstep, -⟩ := (flushTransaction_eq_ok henabled).mp h
    rw [hstep]
    intro d hd
    obtain rfl := List.mem_singleton.mp hd
    rfl

theorem gated_flushBlock {d : Draft} {done : Step × Draft} (h : r.flushBlock d = .ok done) :
    done.1.Gated := by
  cases henabled : r.enabled with
  | false =>
    rw [flushBlock_disabled henabled] at h
    obtain rfl := Except.ok.inj h
    exact Step.gated_idle
  | true =>
    obtain ⟨-, hstep, -⟩ := flushBlock_ok henabled h
    rw [hstep]
    intro d hd
    obtain rfl := List.mem_singleton.mp hd
    rfl

end Recorder

/-! ## Tracers at a level -/

theorem Writer.told_deliver (v : Verbosity) (w : Writer) (files : Files) (b : Bytes) :
    Diagnostic.told v (w.deliver files b).notes = (w.deliver files b).notes := by
  refine List.filter_eq_self.mpr fun d hd => Diagnostic.isTold_of_not_gated ?_ v
  simp only [deliver] at hd
  split at hd
  · cases hd
  split at hd
  · unfold complete at hd
    split at hd
    · cases hd
    · obtain rfl := List.mem_singleton.mp hd
      rfl
  · unfold giveUp at hd
    dsimp only at hd
    split at hd
    · obtain rfl := List.mem_singleton.mp hd
      rfl
    · simp only [List.mem_cons, List.not_mem_nil, or_false] at hd
      rcases hd with rfl | rfl <;> rfl

theorem Draft.absorb_muted (v : Verbosity) (d : Draft) (s : Step) :
    d.absorb (s.muted v) = d.absorb s := by
  simp only [absorb, Step.trace_muted, Step.pieces_muted]
  rfl

namespace Tracer

/-- What is told of an outcome at a level. -/
def Outcome.toldAt (v : Verbosity) (o : Outcome) : Outcome :=
  { o with notes := Diagnostic.told v o.notes }

theorem emit_isOpen {output : List Output}
    (h : ∀ d ∈ output.flatMap Output.notes, d.isGated = true) (v : Verbosity) (w : Writer)
    (files : Files) :
    let d := emit w files output
    emit w files (output.filter (·.isOpen v)) =
      { d with notes := Diagnostic.told v d.notes } := by
  induction output generalizing w files with
  | nil => rfl
  | cons o output ih =>
    rw [List.flatMap_cons, List.forall_mem_append] at h
    cases o with
    | note d =>
      have hpasses := Diagnostic.passes_eq (h.1 d (by simp [Output.notes])) v
      rw [List.filter_cons]
      cases hopen : d.isTold v <;>
        simp_all [Output.isOpen, emit, Diagnostic.told]
    | line e =>
      rw [List.filter_cons_of_pos rfl]
      simp only [emit, ih h.2, Diagnostic.told_append, Writer.told_deliver]
    | forward t =>
      rw [List.filter_cons_of_pos rfl]
      simp only [emit, ih h.2, Diagnostic.told_append, Writer.told_deliver]

/-- A step at a level is taken as the whole step is, and what is told of it is told of that. -/
theorem take_muted {s : Step} (h : s.Gated) (v : Verbosity) (t : Tracer) (files : Files) :
    t.take files (s.muted v) = (t.take files s).toldAt v := by
  cases t with
  | direct r w =>
    have hemit := emit_isOpen h v w files
    simp only [take, Step.muted, hemit]
    rfl
  | draft d =>
    simp only [take, Draft.absorb_muted, Step.notes_muted h]
    rfl

variable {t : Tracer} {files : Files} {op : Operation} {d : Draft}

def performAt (v : Verbosity) (t : Tracer) (files : Files) (op : Operation) :
    Except Fault (Outcome × List Nat) := do
  let s ← t.recorder.perform op
  return (t.take files (s.muted v), s.calls)

def flushTransactionAt (v : Verbosity) (t : Tracer) (files : Files) (d : Draft) :
    Except Fault (Outcome × Draft) := do
  let (s, d) ← t.recorder.flushTransaction d
  return (t.take files (s.muted v), d)

def flushBlockAt (v : Verbosity) (t : Tracer) (files : Files) (d : Draft) :
    Except Fault (Outcome × Draft) := do
  let (s, d) ← t.recorder.flushBlock d
  return (t.take files (s.muted v), d)

/-- What is taken at a level of any steps that tell nothing without a gate. -/
theorem bind_take_muted {α β : Type} {x : Except Fault α} {step : α → Step}
    (h : ∀ a, x = .ok a → (step a).Gated) (left : α → β) (v : Verbosity) (t : Tracer)
    (files : Files) :
    (x >>= fun a => .ok (t.take files ((step a).muted v), left a)) =
      (x >>= fun a => .ok (t.take files (step a), left a)).map
        fun (o, b) => (o.toldAt v, b) := by
  cases x with
  | error f => rfl
  | ok a => simp only [ok_bind, Except.map, take_muted (h a rfl)]

theorem performAt_eq (v : Verbosity) (t : Tracer) (files : Files) (op : Operation) :
    t.performAt v files op = (t.perform files op).map fun (o, calls) => (o.toldAt v, calls) :=
  bind_take_muted (fun _ => Recorder.gated_perform) Step.calls v t files

theorem flushTransactionAt_eq (v : Verbosity) (t : Tracer) (files : Files) (d : Draft) :
    t.flushTransactionAt v files d =
      (t.flushTransaction files d).map fun (o, d) => (o.toldAt v, d) :=
  bind_take_muted (fun _ => Recorder.gated_flushTransaction) Prod.snd v t files

theorem flushBlockAt_eq (v : Verbosity) (t : Tracer) (files : Files) (d : Draft) :
    t.flushBlockAt v files d = (t.flushBlock files d).map fun (o, d) => (o.toldAt v, d) :=
  bind_take_muted (fun _ => Recorder.gated_flushBlock) Prod.snd v t files

end Tracer

/-- Starts a transaction in a draft at a level. -/
def Recorder.startSpeculativeAt (v : Verbosity) (r : Recorder) (d : Draft) (tx : Transaction)
    (index : UInt64) (baseFee : Option Word) : Except Fault (Draft × List Diagnostic) := do
  if r.enabled then r.requireInBlock
  let d ← if d.recorder.enabled then d.enterBlock r else pure d
  let s ← d.recorder.perform (.startTransaction tx index baseFee)
  return (d.absorb (s.muted v), (s.muted v).notes)

theorem Recorder.startSpeculativeAt_eq (v : Verbosity) (r : Recorder) (d : Draft)
    (tx : Transaction) (index : UInt64) (baseFee : Option Word) :
    r.startSpeculativeAt v d tx index baseFee = (r.startSpeculative d tx index baseFee).map
      fun (d, notes) => (d, Diagnostic.told v notes) := by
  have hat : r.startSpeculativeAt v d tx index baseFee =
      (if r.enabled then r.requireInBlock else .ok ()) >>= fun _ =>
        (if d.recorder.enabled then d.enterBlock r else .ok d) >>= fun d =>
          d.recorder.perform (.startTransaction tx index baseFee) >>= fun s =>
            .ok (d.absorb (s.muted v), (s.muted v).notes) := by
    unfold startSpeculativeAt
    cases r.enabled <;> cases d.recorder.enabled <;> rfl
  rw [hat, startSpeculative_eq_bind, map_bind_eq]
  refine congrArg _ (funext fun _ => ?_)
  rw [map_bind_eq]
  refine congrArg _ (funext fun d => ?_)
  cases hstep : d.recorder.perform (.startTransaction tx index baseFee) with
  | error f => rfl
  | ok s =>
    simp only [ok_bind, Except.map, Draft.absorb_muted, Step.notes_muted (gated_perform hstep)]

def Draft.abandonAt (v : Verbosity) (d : Draft) : Draft × List Diagnostic :=
  let (d, notes) := d.abandon
  (d, notes.filter (·.passes v))

namespace Instrumentation

theorem told_setUp (v : Verbosity) (files : Files) (s : Settings) (known : Option Json) :
    Diagnostic.told v (setUp files s known).2 = (setUp files s known).2 := by
  unfold setUp
  split
  · rfl
  · cases isActive s <;> rfl

/-- The opening line is told nothing of but by its delivery. -/
theorem told_syncTracer (v : Verbosity) (i : Instrumentation) (files : Files) (sink : Sink) :
    Diagnostic.told v (i.syncTracer files sink).1.notes = (i.syncTracer files sink).1.notes := by
  unfold syncTracer
  dsimp only
  split
  · simp only [Tracer.take, Recorder.announce, Step.line, Tracer.emit, List.append_nil,
      Writer.told_deliver]
  · rfl

end Instrumentation

/-! ## Sessions at a level -/

namespace Session

/-- Carries an action out at a level. Only recorders and drafts look at it. -/
def actAt (v : Verbosity) (s : Session) : Action → Except Stop Result
  | .startSpeculative name draft tx index baseFee => do
    let t ← s.tracer name
    let d ← s.draft draft
    let (d, notes) ← orStop (t.recorder.startSpeculativeAt v d tx index baseFee)
    return ⟨s.put draft (.draft d), .nothing, notes⟩
  | .flushTransaction name draft => do
    let t ← s.tracer name
    let d ← s.draft draft
    let (o, d) ← orStop (t.flushTransactionAt v s.files d)
    return (s.put draft (.draft d)).settle name o .nothing
  | .flushBlock name draft => do
    let t ← s.tracer name
    let d ← s.draft draft
    let (o, d) ← orStop (t.flushBlockAt v s.files d)
    return (s.put draft (.draft d)).settle name o .nothing
  | .abandon name => do
    let d ← s.draft name
    let (d, notes) := d.abandonAt v
    return ⟨s.put name (.draft d), .nothing, notes⟩
  | .perform name op => do
    let t ← s.tracer name
    let (o, calls) ← orStop (t.performAt v s.files op)
    return s.settle name o (calls.head?.elim .nothing .call)
  | action => s.act action

/-- What is told of a result at a level. -/
def Result.toldAt (v : Verbosity) (r : Result) : Result := { r with notes := r.told v }

theorem toldAt_settle (v : Verbosity) (s : Session) (name : String) (o : Tracer.Outcome)
    (reply : Reply) : (s.settle name o reply).toldAt v = s.settle name (o.toldAt v) reply := rfl

/-- At a level an action does what it does at all levels, and what is told of it is told at this
level. -/
theorem actAt_eq (v : Verbosity) (s : Session) (a : Action) :
    s.actAt v a = (s.act a).map (Result.toldAt v) := by
  cases a with
  | newDirect name enabled progress sink fallback => rfl
  | newDraft name enabled progress buffer => rfl
  | keepBuffer name buffer =>
    simp only [actAt, act]
    cases s.draft name <;> rfl
  | finish name =>
    simp only [actAt, act]
    cases s.tracer name with
    | error stop => rfl
    | ok t => cases t <;> rfl
  | setUp settings genesis =>
    have hnotes := Instrumentation.told_setUp v s.files settings genesis
    simp only [actAt, act]
    split
    · next i notes hsetUp =>
      rw [hsetUp] at hnotes
      simp only [Except.map, Result.toldAt, Result.told, hnotes]
    · next e notes hsetUp =>
      rw [hsetUp] at hnotes
      simp only [Except.map, Result.toldAt, Result.told, hnotes]
  | syncTracer name sink =>
    simp only [actAt, act]
    cases s.configured with
    | error stop => rfl
    | ok i =>
      have hnotes := Instrumentation.told_syncTracer v i s.files sink
      simp only [ok_bind, pure, Except.pure, Except.map, toldAt_settle, Tracer.Outcome.toldAt,
        hnotes]
  | speculativeDraft name buffer =>
    simp only [actAt, act]
    cases s.configured <;> rfl
  | takeBuffers =>
    simp only [actAt, act]
    cases s.configured <;> rfl
  | setBehind isBehind =>
    simp only [actAt, act]
    cases s.configured <;> rfl
  | overview =>
    simp only [actAt, act]
    cases s.configured <;> rfl
  | requireGenesis =>
    simp only [actAt, act]
    cases s.configured <;> rfl
  | startSpeculative name draft tx index baseFee =>
    simp only [actAt, act, map_bind_eq, Recorder.startSpeculativeAt_eq]
    refine congrArg _ (funext fun t => congrArg _ (funext fun d => ?_))
    cases t.recorder.startSpeculative d tx index baseFee <;> rfl
  | flushTransaction name draft =>
    simp only [actAt, act, map_bind_eq, Tracer.flushTransactionAt_eq]
    refine congrArg _ (funext fun t => congrArg _ (funext fun d => ?_))
    cases t.flushTransaction s.files d <;> rfl
  | flushBlock name draft =>
    simp only [actAt, act, map_bind_eq, Tracer.flushBlockAt_eq]
    refine congrArg _ (funext fun t => congrArg _ (funext fun d => ?_))
    cases t.flushBlock s.files d <;> rfl
  | abandon name =>
    simp only [actAt, act, map_bind_eq]
    rfl
  | perform name op =>
    simp only [actAt, act, map_bind_eq, Tracer.performAt_eq]
    refine congrArg _ (funext fun t => ?_)
    cases t.perform s.files op <;> rfl

/-- What a process does besides waiting: an action of its session, or a genesis report. -/
inductive Task
  | act (action : Action)
  | report (actual expected : Header) (stream : Stream)

/-- What came of a task, and what was told of it. -/
structure Happening where
  session : Session
  answer : Reply ⊕ Stream
  notes : List Diagnostic

namespace Happening

/-- All but the diagnostics. -/
def silently (h : Happening) : Session × (Reply ⊕ Stream) := (h.session, h.answer)

def isFinal (h : Happening) : Bool := h.answer.elim Reply.isFinal fun _ => false

def toldAt (v : Verbosity) (h : Happening) : Happening :=
  { h with notes := Diagnostic.told v h.notes }

end Happening

def carryOutAt (v : Verbosity) (s : Session) : Task → Except Stop Happening
  | .act action => (s.actAt v action).map fun r => ⟨r.session, .inl r.reply, r.notes⟩
  | .report actual expected stream =>
    let (stream, notes) := GenesisReport.write actual expected stream
    .ok ⟨s, .inr stream, notes⟩

/-- What comes of some tasks at a level, up to the last that is carried out. -/
def runAt (v : Verbosity) (s : Session) : List Task → List Happening × Option Stop
  | [] => ([], none)
  | task :: rest =>
    match s.carryOutAt v task with
    | .error stop => ([], some stop)
    | .ok h =>
      if h.isFinal then ([h], none)
      else
        let (more, stop) := h.session.runAt v rest
        (h :: more, stop)

theorem told_report (v : Verbosity) (actual expected : Header) (stream : Stream) :
    Diagnostic.told v (GenesisReport.write actual expected stream).2 =
      (GenesisReport.write actual expected stream).2 := by
  unfold GenesisReport.write
  split <;> rfl

theorem carryOutAt_eq (v : Verbosity) (s : Session) (task : Task) :
    s.carryOutAt v task = (s.carryOutAt .full task).map (Happening.toldAt v) := by
  cases task with
  | act action =>
    simp only [carryOutAt, actAt_eq]
    cases s.act action with
    | error stop => rfl
    | ok r => simp only [Except.map, Result.toldAt, Result.told, Happening.toldAt,
        Diagnostic.told_full]
  | report actual expected stream =>
    simp only [carryOutAt, Except.map, Happening.toldAt, told_report]

/-- At a level the same comes of some tasks as at the highest one, and what is told of it is told
at this level. -/
theorem runAt_eq (v : Verbosity) (s : Session) (tasks : List Task) :
    s.runAt v tasks =
      ((s.runAt .full tasks).1.map (Happening.toldAt v), (s.runAt .full tasks).2) := by
  -- the session behind a task does not depend on the level, so both runs go on from the same one
  induction tasks generalizing s with
  | nil => rfl
  | cons task rest ih =>
    have htask := s.carryOutAt_eq v task
    unfold runAt
    cases hfull : s.carryOutAt .full task with
    | error stop =>
      rw [hfull] at htask
      rw [htask]
      rfl
    | ok h =>
      rw [hfull] at htask
      simp only [htask, Except.map]
      have hfinal : (h.toldAt v).isFinal = h.isFinal := rfl
      rw [hfinal]
      cases h.isFinal with
      | true => rfl
      | false =>
        have hrest := ih h.session
        simp only [Bool.false_eq_true, if_false]
        rw [show (h.toldAt v).session = h.session from rfl, hrest]
        rfl

/-- Whatever values the environment variable has, the same comes of all tasks, up to the same stop;
only what is told differs. Of what is told at the highest level, a level keeps all but what has its
gate above it; what has no gate is told alike at all levels; and at a level no less is told, in the
same order, than at a lower one. -/
theorem diagnostics_stay_apart (s : Session) (tasks : List Task) (x y : Option String) :
    let v := Verbosity.ofVariable x
    let w := Verbosity.ofVariable y
    let here := s.runAt v tasks
    let there := s.runAt w tasks
    here.2 = there.2 ∧
    here.1.map Happening.silently = there.1.map Happening.silently ∧
    here.1.map Happening.notes =
      (s.runAt .full tasks).1.map (fun h => h.notes.filter fun d => d.gate.all (·.rank ≤ v.rank)) ∧
    here.1.map (fun h => h.notes.filter fun d => d.gate.isNone) =
      there.1.map (fun h => h.notes.filter fun d => d.gate.isNone) ∧
    (v.rank ≤ w.rank →
      (here.1.flatMap Happening.notes).Sublist (there.1.flatMap Happening.notes)) := by
  intro v w here there
  set all := s.runAt .full tasks
  have hhere : here = (all.1.map (Happening.toldAt v), all.2) := s.runAt_eq v tasks
  have hthere : there = (all.1.map (Happening.toldAt w), all.2) := s.runAt_eq w tasks
  rw [hhere, hthere]
  simp only [List.map_map, List.flatMap_map]
  refine ⟨trivial, List.map_congr_left fun _ _ => rfl, ?_, ?_, fun hle => ?_⟩
  · refine List.map_congr_left fun h _ => ?_
    exact List.filter_congr fun d _ => Diagnostic.isTold_eq v d
  · refine List.map_congr_left fun h _ => ?_
    exact (Diagnostic.filter_ungated_told v h.notes).trans
      (Diagnostic.filter_ungated_told w h.notes).symm
  · induction all.1 with
    | nil => exact .slnil
    | cons h rest ih => exact (Diagnostic.told_sublist hle h.notes).append ih

/-- A sink whose first flush fails gets the start of a call and a hash; then a report breaks. -/
def sampleTasks : List Task :=
  let header := (Consumer.plainBlock 0).header
  [.act (.newDirect "c" true false ⟨[], .takeAll, [some .brokenPipe], []⟩ ""),
   .act (.perform "c" (.startCall .call)),
   .act (.perform "c" (.keccak (.replicate 32 0) [1])),
   .report header header ⟨[], some (3, .brokenPipe), []⟩]

theorem diagnostics_stay_apart_sample :
    let told := fun v => ((start ⟨[]⟩).runAt v sampleTasks).1.flatMap Happening.notes
    let low := Verbosity.ofVariable none
    let high := Verbosity.ofVariable (some "Trace")
    low.rank ≤ high.rank ∧ (told low).Sublist (told high) ∧
      told low = [.flushFailed .brokenPipe, .reportFailed .brokenPipe] ∧
      told high =
        [.callStarted .call 1 1, .flushFailed .brokenPipe, .reportFailed .brokenPipe] := by
  have hle : (Verbosity.ofVariable none).rank ≤ (Verbosity.ofVariable (some "Trace")).rank :=
    Nat.zero_le _
  have hhigh : Verbosity.ofVariable (some "Trace") = .trace := by decide +kernel
  obtain ⟨-, -, -, -, hmore⟩ :=
    diagnostics_stay_apart (start ⟨[]⟩) sampleTasks none (some "Trace")
  refine ⟨hle, hmore hle, ?_, ?_⟩
  · decide +kernel
  · rw [hhigh]
    decide +kernel

end Session
end EvmTrace
