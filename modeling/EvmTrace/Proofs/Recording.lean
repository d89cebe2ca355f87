import EvmTrace.Proofs.Operations
import EvmTrace.Tracer

/-!
# What tracers record

Over a sink that accepts every write, and in a draft, the content of a tracer grows by just the
bytes of the trace that its recorder puts out.
-/
namespace EvmTrace

/-! ## Sinks that accept every write -/

namespace Sink

/-- Takes all of every write that is still to come; how flushes turn out does not matter. -/
def AcceptsAll (s : Sink) : Prop :=
  s.lasting = .takeAll ∧ ∀ reaction ∈ s.reactions, reaction = .takeAll

theorem acceptsAll_accepting : accepting.AcceptsAll := ⟨rfl, by simp [accepting]⟩

theorem write_of_acceptsAll {s : Sink} (h : s.AcceptsAll) (b : Bytes) :
    (s.write b).1 = .ok b.length ∧ (s.write b).2.AcceptsAll ∧
      (s.write b).2.accepted = s.accepted ++ b := by
  have hreaction : s.reactions.headD s.lasting = .takeAll := by
    cases hreactions : s.reactions with
    | nil => exact h.1
    | cons reaction rest => exact h.2 reaction (by simp [hreactions])
  have hanswer : (s.write b).1 = .ok b.length := by
    simp only [write, hreaction, Reaction.answer]
  refine ⟨hanswer, ⟨h.1, fun reaction hmem => h.2 reaction (List.mem_of_mem_tail hmem)⟩, ?_⟩
  rw [accepted_write, hanswer]
  simp [Call.accepted]

end Sink

namespace Writer

theorem attempts_of_acceptsAll {p : Progress} (h : p.sink.AcceptsAll) (limit : Nat) :
    attempts (limit + 1) p = { p with sink := (p.sink.write p.remaining).2, remaining := [] } := by
  obtain ⟨hanswer, -, -⟩ := Sink.write_of_acceptsAll h p.remaining
  have hattempt : attempt p =
      { p with sink := (p.sink.write p.remaining).2, remaining := [] } := by
    unfold attempt
    split
    · next count sink hwrite =>
      rw [hwrite] at hanswer
      obtain rfl := Except.ok.inj hanswer
      simp [hwrite]
    · next e sink hwrite =>
      rw [hwrite] at hanswer
      cases hanswer
  simp [attempts, hattempt]

theorem deliver_of_ne_nil {w : Writer} (h : w.sink.AcceptsAll) (files : Files) {b : Bytes}
    (hb : b ≠ []) : w.deliver files b = complete w files (w.sink.write b).2 := by
  have hfirst := attempts_of_acceptsAll (p := ⟨w.sink, b, none⟩) h 9
  simp [deliver, attemptLimit, hb, hfirst]

/-- All of a byte string gets into a sink that accepts every write. -/
theorem deliver_of_acceptsAll {w : Writer} (h : w.sink.AcceptsAll) (files : Files) (b : Bytes) :
    (w.deliver files b).writer.sink.AcceptsAll ∧ (w.deliver files b).files = files ∧
      (w.deliver files b).writer.sink.accepted = w.sink.accepted ++ b := by
  by_cases hempty : b = []
  · subst hempty
    rw [deliver_nil]
    exact ⟨h, rfl, by simp⟩
  · obtain ⟨-, haccepts, haccepted⟩ := Sink.write_of_acceptsAll h b
    rw [deliver_of_ne_nil h files hempty, sink_complete, files_complete]
    -- a failing flush changes neither the sink's bytes nor the files
    exact ⟨haccepts, rfl, (Sink.accepted_flush _).trans haccepted⟩

end Writer

namespace Tracer

theorem emit_of_acceptsAll {w : Writer} (h : w.sink.AcceptsAll) (files : Files)
    (output : List Output) :
    (emit w files output).writer.sink.AcceptsAll ∧ (emit w files output).files = files ∧
      (emit w files output).writer.sink.accepted =
        w.sink.accepted ++ Trace.bytes (output.flatMap Output.trace) := by
  induction output generalizing w with
  | nil => exact ⟨h, rfl, by simp [emit, Trace.bytes]⟩
  | cons out rest ih =>
    have hnext {b : Bytes} (hout : out.trace.bytes = b) :
        let first := w.deliver files b
        let d := emit first.writer first.files rest
        d.writer.sink.AcceptsAll ∧ d.files = files ∧ d.writer.sink.accepted =
          w.sink.accepted ++ Trace.bytes ((out :: rest).flatMap Output.trace) := by
      obtain ⟨haccepts, hfiles, haccepted⟩ := Writer.deliver_of_acceptsAll h files b
      obtain ⟨haccepts', hfiles', haccepted'⟩ := ih haccepts
      simp only [hfiles]
      refine ⟨haccepts', hfiles', ?_⟩
      rw [haccepted', haccepted, List.flatMap_cons, Trace.bytes_append, hout, List.append_assoc]
    cases out with
    | note diagnostic => exact ih h
    | line event => exact hnext (by simp [Output.trace, Trace.bytes])
    | forward trace => exact hnext rfl

/-- Loses nothing: a draft never does, a sink does not if it accepts every write. -/
def AcceptsAll : Tracer → Prop
  | direct _ w => w.sink.AcceptsAll
  | draft _ => True

theorem take_of_acceptsAll {t : Tracer} (h : t.AcceptsAll) (files : Files) (s : Step) :
    (t.take files s).tracer.AcceptsAll ∧ (t.take files s).files = files ∧
      (t.take files s).tracer.content = t.content ++ s.trace.bytes := by
  cases t with
  | direct r w => exact emit_of_acceptsAll h files s.output
  | draft d => exact ⟨trivial, rfl, by simp [take, content, Trace.bytes_append]⟩

/-- A tracer after some operations, with the numbers of the calls they started. -/
structure Performed where
  tracer : Tracer
  files : Files
  calls : List Nat

/-- Performs operations in order, up to the first fault. -/
def performAll (t : Tracer) (files : Files) : List Operation → Except Fault Performed
  | [] => .ok ⟨t, files, []⟩
  | op :: ops => do
    let (o, calls) ← t.perform files op
    let rest ← o.tracer.performAll o.files ops
    return { rest with calls := calls ++ rest.calls }

/-- Has gone from one state of a tracer to another by what a step puts out. -/
structure Grows (t t' : Tracer) (s : Step) : Prop where
  recorder : t'.recorder = s.recorder
  acceptsAll : t'.AcceptsAll
  content : t'.content = t.content ++ s.trace.bytes

theorem take_grows {t : Tracer} (h : t.AcceptsAll) (files : Files) (s : Step) :
    t.Grows (t.take files s).tracer s ∧ (t.take files s).files = files := by
  obtain ⟨haccepts, hfiles, hcontent⟩ := take_of_acceptsAll h files s
  exact ⟨⟨recorder_take t files s, haccepts, hcontent⟩, hfiles⟩

theorem Grows.trans {t t' t'' : Tracer} {s s' : Step} (h : t.Grows t' s)
    (h' : t'.Grows t'' s') : t.Grows t'' (s.followedBy s') where
  recorder := h'.recorder
  acceptsAll := h'.acceptsAll
  content := by
    rw [h'.content, h.content, Step.trace_followedBy, Trace.bytes_append, List.append_assoc]

/-- What a recorder takes in a run, a tracer around it takes as well. -/
theorem performAll_of_run {t : Tracer} (h : t.AcceptsAll) (files : Files) {ops : List Operation}
    {s : Step} (hrun : t.recorder.run ops = .ok s) :
    ∃ t', t.performAll files ops = .ok ⟨t', files, s.calls⟩ ∧ t.Grows t' s := by
  induction ops generalizing t s with
  | nil =>
    obtain rfl := Except.ok.inj hrun
    exact ⟨t, rfl, ⟨rfl, h, by simp [Trace.bytes]⟩⟩
  | cons op ops ih =>
    obtain ⟨first, rest, hfirst, hrest, rfl⟩ := Recorder.run_cons.mp hrun
    obtain ⟨hgrows, hfiles⟩ := take_grows h files first
    have hperform : t.perform files op = .ok (t.take files first, first.calls) :=
      bind_eq_ok.mpr ⟨first, hfirst, rfl⟩
    rw [← hgrows.recorder] at hrest
    obtain ⟨t', ht', hgrows'⟩ := ih hgrows.acceptsAll hrest
    have htail : (t.take files first).tracer.performAll (t.take files first).files ops =
        .ok ⟨t', files, rest.calls⟩ := by
      rw [hfiles]
      exact ht'
    exact ⟨t', bind_eq_ok.mpr ⟨_, hperform, bind_eq_ok.mpr ⟨_, htail, rfl⟩⟩,
      hgrows.trans hgrows'⟩

end Tracer

namespace Draft

/-- A draft after some operations, with the numbers of the calls they started. -/
def performAll (d : Draft) : List Operation → Except Fault (Draft × List Nat)
  | [] => .ok (d, [])
  | op :: ops => do
    let s ← d.recorder.perform op
    let (d, calls) ← (d.absorb s).performAll ops
    return (d, s.calls ++ calls)

theorem performAll_of_run {d : Draft} {ops : List Operation} {s : Step}
    (hrun : d.recorder.run ops = .ok s) :
    ∃ d', d.performAll ops = .ok (d', s.calls) ∧ d'.recorder = s.recorder ∧
      d'.trace = d.trace ++ s.trace := by
  induction ops generalizing d s with
  | nil =>
    obtain rfl := Except.ok.inj hrun
    exact ⟨d, rfl, rfl, by simp⟩
  | cons op ops ih =>
    obtain ⟨first, rest, hfirst, hrest, rfl⟩ := Recorder.run_cons.mp hrun
    obtain ⟨d', hd', hrecorder, htrace⟩ := ih (d := d.absorb first) hrest
    refine ⟨d', bind_eq_ok.mpr ⟨_, hfirst, bind_eq_ok.mpr ⟨_, hd', rfl⟩⟩, hrecorder, ?_⟩
    rw [htrace, trace_absorb, Step.trace_followedBy, List.append_assoc]

end Draft
end EvmTrace
