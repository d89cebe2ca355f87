import EvmTrace.Proofs.Delivery
import EvmTrace.Proofs.Placement

/-!
# Trouble with the sink stays with the sink

Where the canonical lines go has no part in what the members of an ensemble do. So two sinks are
handed the same byte strings, however each of them behaves; and a sink that takes them all holds in
the end what a draft in the place of the canonical tracer would hold back.
-/
namespace EvmTrace

/-! ## Byte strings that get through -/

namespace Writer

/-- A writer and its files once some byte strings are delivered. -/
def handAll (w : Writer) (files : Files) (handed : List Bytes) : Writer × Files :=
  let d := w.deliverAll files (handed.map .write)
  (d.writer, d.files)

/-- The attempts for a byte string leave nothing of it. -/
def Completes (w : Writer) (b : Bytes) : Prop :=
  (attempts attemptLimit ⟨w.sink, b, none⟩).remaining = []

/-- One after the other, all byte strings get through. -/
def CompletesAll (w : Writer) (files : Files) : List Bytes → Prop
  | [] => True
  | b :: rest =>
    w.Completes b ∧ (w.deliver files b).writer.CompletesAll (w.deliver files b).files rest

instance (w : Writer) (b : Bytes) : Decidable (w.Completes b) :=
  inferInstanceAs (Decidable ((attempts attemptLimit ⟨w.sink, b, none⟩).remaining = []))

instance decidableCompletesAll (w : Writer) (files : Files) :
    (handed : List Bytes) → Decidable (w.CompletesAll files handed)
  | [] => inferInstanceAs (Decidable True)
  | b :: rest =>
    have := decidableCompletesAll (w.deliver files b).writer (w.deliver files b).files rest
    inferInstanceAs (Decidable (_ ∧ _))

variable {w : Writer} {files : Files} {handed : List Bytes} {b : Bytes}

theorem handAll_nil (w : Writer) (files : Files) : w.handAll files [] = (w, files) := rfl

theorem handAll_cons (w : Writer) (files : Files) (b : Bytes) (rest : List Bytes) :
    w.handAll files (b :: rest) =
      (w.deliver files b).writer.handAll (w.deliver files b).files rest := rfl

theorem handAll_append (w : Writer) (files : Files) (a b : List Bytes) :
    w.handAll files (a ++ b) = (w.handAll files a).1.handAll (w.handAll files a).2 b := by
  induction a generalizing w files with
  | nil => rfl
  | cons x a ih => rw [List.cons_append, handAll_cons, ih, handAll_cons]

theorem accepted_deliver (h : w.Completes b) (files : Files) :
    (w.deliver files b).writer.sink.accepted = w.sink.accepted ++ b := by
  by_cases hempty : b = []
  · subst hempty
    rw [deliver_nil, List.append_nil]
  · obtain ⟨as, -, hreaches, -⟩ := attempts_spec attemptLimit ⟨w.sink, b, none⟩ hempty
    have htaken : taken as = b := by
      have hremaining := hreaches.remaining
      rwa [h, List.append_nil] at hremaining
    have hdone : (attempts attemptLimit ⟨w.sink, b, none⟩).remaining.isEmpty = true := by
      rw [h, List.isEmpty_nil]
    rw [deliver, if_neg (by simp [hempty])]
    dsimp only
    rw [if_pos hdone, sink_complete, Sink.accepted_flush, Sink.accepted, hreaches.calls,
      List.reverse_append, List.reverse_reverse, List.flatMap_append, List.flatMap_map]
    exact congrArg _ htaken

theorem accepted_handAll (h : w.CompletesAll files handed) :
    (w.handAll files handed).1.sink.accepted = w.sink.accepted ++ handed.flatten := by
  induction handed generalizing w files with
  | nil => rw [handAll_nil, List.flatten_nil, List.append_nil]
  | cons b rest ih =>
    obtain ⟨hfirst, hrest⟩ := h
    rw [handAll_cons, ih hrest, accepted_deliver hfirst, List.flatten_cons, List.append_assoc]

end Writer

/-! ## What a step hands over -/

/-- The byte string that a sink is handed for an output. -/
def Output.handed : Output → List Bytes
  | .line event => [event.line]
  | .forward trace => [trace.bytes]
  | .note _ => []

def Step.handed (s : Step) : List Bytes := s.output.flatMap Output.handed

theorem Output.flatten_handed (o : Output) : o.handed.flatten = o.trace.bytes := by
  cases o <;> simp [handed, trace, Trace.bytes]

theorem Step.flatten_handed (s : Step) : s.handed.flatten = s.trace.bytes := by
  have h (output : List Output) :
      (output.flatMap Output.handed).flatten = Trace.bytes (output.flatMap Output.trace) := by
    induction output with
    | nil => rfl
    | cons o output ih =>
      rw [List.flatMap_cons, List.flatten_append, ih, o.flatten_handed, List.flatMap_cons,
        Trace.bytes_append]
  exact h s.output

namespace Tracer

theorem emit_eq (w : Writer) (files : Files) (output : List Output) :
    ((emit w files output).writer, (emit w files output).files) =
      w.handAll files (output.flatMap Output.handed) := by
  induction output generalizing w files with
  | nil => rfl
  | cons o output ih =>
    cases o with
    | note diagnostic => exact ih w files
    | line event =>
      exact ih (w.deliver files event.line).writer (w.deliver files event.line).files
    | forward trace =>
      exact ih (w.deliver files trace.bytes).writer (w.deliver files trace.bytes).files

end Tracer

namespace Ensemble

variable {ι : Type} [DecidableEq ι] {e e' : Ensemble ι} {a : Act ι} {acts : List (Act ι)}
  {entry : Entry ι} {j : Journal ι}

/-! ## Ensembles that differ in the place of the canonical lines -/

/-- All of an ensemble but that place. -/
def inner (e : Ensemble ι) : Recorder × (ι → Draft) := (e.canonical.recorder, e.drafts)

omit [DecidableEq ι] in
theorem drafts_of_inner (h : e.inner = e'.inner) : e.drafts = e'.drafts := (Prod.mk.inj h).2

omit [DecidableEq ι] in
theorem recorder_of_inner (h : e.inner = e'.inner) : e.recorder = e'.recorder := by
  funext m
  cases m with
  | none => exact (Prod.mk.inj h).1
  | some k => rw [recorder, recorder, drafts_of_inner h]

theorem inner_put (h : e.inner = e'.inner) (k : ι) (d : Draft) :
    (e.put k d).inner = (e'.put k d).inner := by
  have hrecorder : e.canonical.recorder = e'.canonical.recorder := (Prod.mk.inj h).1
  simp only [inner, put, hrecorder, drafts_of_inner h]

theorem inner_take (h : e.inner = e'.inner) (m : Option ι) (s : Step) :
    (e.take m s).inner = (e'.take m s).inner := by
  cases m with
  | none => simp only [inner, take, Tracer.recorder_take, drafts_of_inner h]
  | some k =>
    rw [take, take, drafts_of_inner h]
    exact inner_put h k _

/-- Both stop with the same fault, or both end alike and with the same result. -/
inductive Parallel {β : Type} :
    Except Fault (Ensemble ι × β) → Except Fault (Ensemble ι × β) → Prop
  | fault (f : Fault) : Parallel (.error f) (.error f)
  | done {x y : Ensemble ι} (result : β) (h : x.inner = y.inner) :
    Parallel (.ok (x, result)) (.ok (y, result))

theorem parallel_act (h : e.inner = e'.inner) (a : Act ι) : Parallel (e.act a) (e'.act a) := by
  cases a with
  | perform m op =>
    rw [act, act, recorder_of_inner h]
    cases (e'.recorder m).perform op with
    | error f => exact .fault f
    | ok s => exact .done _ (inner_take h m s)
  | start lender k other tx index baseFee =>
    rw [act, act, recorder_of_inner h, drafts_of_inner h]
    cases (e'.recorder lender).startSpeculative (e'.drafts k) tx index baseFee with
    | error f => exact .fault f
    | ok lent => exact .done _ (inner_put h k lent.1)
  | flushTransaction receiver k other =>
    rw [act, act, recorder_of_inner h, drafts_of_inner h]
    cases (e'.recorder receiver).flushTransaction (e'.drafts k) with
    | error f => exact .fault f
    | ok flushed => exact .done _ (inner_take (inner_put h k flushed.2) receiver flushed.1)
  | flushBlock receiver k other =>
    rw [act, act, recorder_of_inner h, drafts_of_inner h]
    cases (e'.recorder receiver).flushBlock (e'.drafts k) with
    | error f => exact .fault f
    | ok flushed => exact .done _ (inner_take (inner_put h k flushed.2) receiver flushed.1)
  | abandon k =>
    rw [act, act, drafts_of_inner h]
    exact .done _ (inner_put h k _)

omit [DecidableEq ι] in
theorem Parallel.bind {β γ : Type} {x y : Except Fault (Ensemble ι × β)}
    {f g : Ensemble ι × β → Except Fault (Ensemble ι × γ)} (h : Parallel x y)
    (hnext : ∀ u v result, u.inner = v.inner → Parallel (f (u, result)) (g (v, result))) :
    Parallel (x >>= f) (y >>= g) := by
  cases h with
  | fault fault => exact .fault fault
  | done result hinner => exact hnext _ _ result hinner

theorem parallel_run (h : e.inner = e'.inner) (acts : List (Act ι)) :
    Parallel (e.run acts) (e'.run acts) := by
  induction acts generalizing e e' with
  | nil => exact .done [] h
  | cons a acts ih =>
    refine (parallel_act h a).bind fun u v entry huv => (ih huv).bind fun x y journal hxy => ?_
    exact .done (entry :: journal) hxy

/-! ## What can be seen of a run -/

/-- The byte strings that the sink is handed in an act. -/
def handed (e : Ensemble ι) : Act ι → List Bytes
  | .perform none op =>
    match (e.recorder none).perform op with
    | .ok s => s.handed
    | .error _ => []
  | .flushTransaction none k _ =>
    match (e.recorder none).flushTransaction (e.drafts k) with
    | .ok (s, _) => s.handed
    | .error _ => []
  | .flushBlock none k _ =>
    match (e.recorder none).flushBlock (e.drafts k) with
    | .ok (s, _) => s.handed
    | .error _ => []
  | _ => []

/-- What can be seen of an act: the numbers of the calls that it starts, the byte strings that the
sink is handed for it, and where it leaves the recorder of the trace and the drafts. -/
structure Observation (ι : Type) where
  started : List Nat
  handed : List Bytes
  recorder : Recorder
  drafts : ι → Draft

/-- What can be seen of a run: its acts up to the first fault, and that fault. -/
structure Transcript (ι : Type) where
  observations : List (Observation ι)
  fault : Option Fault

def Transcript.handed (t : Transcript ι) : List Bytes :=
  t.observations.flatMap Observation.handed

def transcript (e : Ensemble ι) : List (Act ι) → Transcript ι
  | [] => ⟨[], none⟩
  | a :: rest =>
    match e.act a with
    | .ok (x, _) =>
      let later := x.transcript rest
      ⟨⟨e.callsOf a, e.handed a, x.canonical.recorder, x.drafts⟩ :: later.observations,
        later.fault⟩
    | .error f => ⟨[], some f⟩

omit [DecidableEq ι] in
theorem callsOf_of_inner (h : e.inner = e'.inner) (a : Act ι) : e.callsOf a = e'.callsOf a := by
  cases a with
  | perform m op => rw [callsOf, callsOf, recorder_of_inner h]
  | _ => rfl

omit [DecidableEq ι] in
theorem handed_of_inner (h : e.inner = e'.inner) (a : Act ι) : e.handed a = e'.handed a := by
  have hrecorder := congrFun (recorder_of_inner h) none
  cases a with
  | perform m op =>
    cases m with
    | none => rw [handed, handed, hrecorder]
    | some k => rfl
  | flushTransaction receiver k other =>
    cases receiver with
    | none => rw [handed, handed, hrecorder, drafts_of_inner h]
    | some r => rfl
  | flushBlock receiver k other =>
    cases receiver with
    | none => rw [handed, handed, hrecorder, drafts_of_inner h]
    | some r => rfl
  | _ => rfl

/-- The place of the canonical lines has no part in what can be seen. -/
theorem transcript_of_inner (h : e.inner = e'.inner) (acts : List (Act ι)) :
    e.transcript acts = e'.transcript acts := by
  induction acts generalizing e e' with
  | nil => rfl
  | cons a acts ih =>
    have hact := parallel_act h a
    have hcalls := callsOf_of_inner h a
    have hhanded := handed_of_inner h a
    simp only [transcript]
    generalize e.act a = x, e'.act a = y at hact
    cases hact with
    | fault f => rfl
    | done entry hinner =>
      obtain ⟨hrecorder, hdrafts⟩ := Prod.mk.inj hinner
      simp only [ih hinner, hcalls, hhanded, hrecorder, hdrafts]

/-! ## What becomes of the byte strings -/

variable {r : Recorder} {w : Writer} {x : Ensemble ι}

/-- Either the canonical tracer takes a step, and its sink is handed what that puts out, or nothing
happens there. -/
theorem handed_act (hact : e.act a = .ok (x, entry)) :
    (∃ (e₁ : Ensemble ι) (s : Step), e₁.canonical = e.canonical ∧ e₁.files = e.files ∧
        x = e₁.take none s ∧ e.handed a = s.handed ∧ entry = ⟨none, s.trace⟩) ∨
      e.handed a = [] ∧ entry.of none = [] ∧ x.canonical = e.canonical ∧ x.files = e.files := by
  cases a with
  | perform m op =>
    obtain ⟨s, hs, rfl, rfl⟩ := act_perform_ok hact
    cases m with
    | none => exact .inl ⟨e, s, rfl, rfl, rfl, by rw [handed, hs], rfl⟩
    | some k => exact .inr ⟨rfl, by simp [Entry.of], rfl, rfl⟩
  | start lender k other tx index baseFee =>
    obtain ⟨-, s, rfl, rfl, -⟩ := act_start_ok hact
    exact .inr ⟨rfl, by simp [Entry.of], rfl, rfl⟩
  | flushTransaction receiver k other =>
    obtain ⟨⟨s, d⟩, hs, hpair⟩ := bind_eq_ok.mp hact
    obtain ⟨rfl, rfl⟩ := Prod.mk.inj (pure_eq_ok.mp hpair)
    cases receiver with
    | none => exact .inl ⟨e.put k d, s, rfl, rfl, rfl, by rw [handed, hs], rfl⟩
    | some k' => exact .inr ⟨rfl, by simp [Entry.of], rfl, rfl⟩
  | flushBlock receiver k other =>
    obtain ⟨⟨s, d⟩, hs, hpair⟩ := bind_eq_ok.mp hact
    obtain ⟨rfl, rfl⟩ := Prod.mk.inj (pure_eq_ok.mp hpair)
    cases receiver with
    | none => exact .inl ⟨e.put k d, s, rfl, rfl, rfl, by rw [handed, hs], rfl⟩
    | some k' => exact .inr ⟨rfl, by simp [Entry.of], rfl, rfl⟩
  | abandon k =>
    obtain ⟨rfl, rfl⟩ := Prod.mk.inj (Except.ok.inj hact)
    exact .inr ⟨rfl, by simp [Entry.of], rfl, rfl⟩

/-- The sink was handed some byte strings, and that is all that happened to it and to the files. -/
structure Sent (w : Writer) (files : Files) (handed : List Bytes) (x : Ensemble ι) : Prop where
  canonical : x.canonical = .direct x.canonical.recorder (w.handAll files handed).1
  files : x.files = (w.handAll files handed).2

theorem sent_act (h : e.canonical = .direct r w) (hact : e.act a = .ok (x, entry)) :
    Sent w e.files (e.handed a) x := by
  rcases handed_act hact with
    ⟨e₁, s, hcanonical, hfiles, rfl, hhanded, -⟩ | ⟨hhanded, -, hcanonical, hfiles⟩
  · obtain ⟨hwriter, hkept⟩ := Prod.mk.inj (Tracer.emit_eq w e.files s.output)
    rw [hhanded]
    constructor
    · simp only [take, hcanonical, hfiles, h, Tracer.take, Tracer.recorder, hwriter]
      rfl
    · simp only [take, hcanonical, hfiles, h, Tracer.take, hkept]
      rfl
  · rw [hhanded]
    exact ⟨by rw [hcanonical, h]; rfl, hfiles⟩

theorem flatten_handed_act (hact : e.act a = .ok (x, entry)) :
    (e.handed a).flatten = (entry.of none).bytes := by
  rcases handed_act hact with ⟨-, s, -, -, -, hhanded, rfl⟩ | ⟨hhanded, hnone, -, -⟩
  · rw [hhanded, s.flatten_handed]
    simp [Entry.of]
  · rw [hhanded, hnone]
    rfl

theorem transcript_cons_of_ok (hact : e.act a = .ok (x, entry)) (acts : List (Act ι)) :
    e.transcript (a :: acts) =
      ⟨⟨e.callsOf a, e.handed a, x.canonical.recorder, x.drafts⟩ ::
        (x.transcript acts).observations, (x.transcript acts).fault⟩ := by
  rw [transcript, hact]

theorem transcript_cons_of_error {f : Fault} (hact : e.act a = .error f) (acts : List (Act ι)) :
    e.transcript (a :: acts) = ⟨[], some f⟩ := by
  rw [transcript, hact]

/-- A run goes as far as its transcript. -/
theorem run_of_transcript (e : Ensemble ι) (acts : List (Act ι)) :
    match (e.transcript acts).fault with
    | none => (e.transcript acts).observations.length = acts.length
    | some f => e.run acts = .error f := by
  induction acts generalizing e with
  | nil => rfl
  | cons a acts ih =>
    cases ha : e.act a with
    | error f =>
      rw [transcript_cons_of_error ha]
      simp only [run, ha]
      rfl
    | ok done =>
      obtain ⟨x, entry⟩ := done
      have hrest := ih x
      rw [transcript_cons_of_ok ha, run_cons_of_ok ha]
      dsimp only
      cases hfault : (x.transcript acts).fault with
      | none =>
        rw [hfault] at hrest
        simpa using hrest
      | some f =>
        rw [hfault] at hrest
        dsimp only at hrest ⊢
        rw [hrest]
        rfl

/-- Up to the first fault the sink is handed what the transcript says, and nothing else. -/
theorem sent_run (h : e.canonical = .direct r w) (acts : List (Act ι)) :
    ∃ x j, e.run (acts.take (e.transcript acts).observations.length) = .ok (x, j) ∧
      Sent w e.files (e.transcript acts).handed x ∧
      (e.transcript acts).handed.flatten = (j.of none).bytes := by
  induction acts generalizing e r w with
  | nil =>
    refine ⟨e, [], rfl, ⟨?_, rfl⟩, rfl⟩
    rw [h]
    rfl
  | cons a acts ih =>
    cases ha : e.act a with
    | error f =>
      rw [transcript_cons_of_error ha]
      refine ⟨e, [], rfl, ⟨?_, rfl⟩, rfl⟩
      rw [h]
      rfl
    | ok done =>
      obtain ⟨e₁, entry⟩ := done
      have hfirst := sent_act h ha
      have hlines := flatten_handed_act ha
      obtain ⟨x, j, hrun, hsent, hflatten⟩ := ih hfirst.canonical
      have hhanded : (e.transcript (a :: acts)).handed =
          e.handed a ++ (e₁.transcript acts).handed := by
        rw [transcript_cons_of_ok ha]
        rfl
      rw [hfirst.files] at hsent
      refine ⟨x, entry :: j, ?_, ?_, ?_⟩
      · rw [transcript_cons_of_ok ha, List.length_cons, List.take_succ_cons, run_cons_of_ok ha,
          hrun]
        rfl
      · rw [hhanded]
        exact ⟨by rw [Writer.handAll_append]; exact hsent.canonical,
          by rw [Writer.handAll_append]; exact hsent.files⟩
      · rw [hhanded, List.flatten_append, hlines, hflatten, Journal.of_cons, Trace.bytes_append]

/-- A draft with the same recorder goes through a run beside the canonical tracer, and gathers the
lines that the tracer puts out. -/
theorem run_beside {files : Files} {drafts : ι → Draft} {d : Draft} (hd : d.recorder = r)
    (hrun : run ⟨.direct r w, files, drafts⟩ acts = .ok (x, j)) (files' : Files) :
    ∃ y, run ⟨.draft d, files', drafts⟩ acts = .ok (y, j) ∧
      y.canonical.content = d.trace.bytes ++ (j.of none).bytes := by
  have hinner : inner ⟨.direct r w, files, drafts⟩ = inner ⟨.draft d, files', drafts⟩ := by
    rw [inner, inner]
    exact congrArg (·, drafts) hd.symm
  have hparallel := parallel_run hinner acts
  rw [hrun] at hparallel
  generalize hbeside : run ⟨.draft d, files', drafts⟩ acts = beside at hparallel
  cases hparallel with
  | @done _ y _ _ =>
    have hcontent := content_run (e := ⟨.draft d, files', drafts⟩) trivial hbeside
    exact ⟨y, rfl, hcontent⟩

/-- What can be seen of a run, the byte strings for the sink included, is the same for every sink
and every fallback file, also where it ends in a fault. These byte strings are what is delivered.
And if all of them get through in a run without fault, the sink has got what a draft with the same
recorder has gathered in its place. -/
theorem trouble_stays_with_sink (r : Recorder) (w : Writer) (files : Files) (drafts : ι → Draft)
    (acts : List (Act ι)) :
    let e : Ensemble ι := ⟨.direct r w, files, drafts⟩
    let seen := e.transcript acts
    (∀ w' files', transcript ⟨.direct r w', files', drafts⟩ acts = seen) ∧
      (∃ x j, e.run (acts.take seen.observations.length) = .ok (x, j) ∧
        x.canonical = .direct x.canonical.recorder (w.handAll files seen.handed).1 ∧
        x.files = (w.handAll files seen.handed).2) ∧
      match seen.fault with
      | some f => e.run acts = .error f
      | none => w.CompletesAll files seen.handed → ∀ d files', d.recorder = r →
          ∃ x y j, e.run acts = .ok (x, j) ∧ run ⟨.draft d, files', drafts⟩ acts = .ok (y, j) ∧
            x.canonical.content = w.sink.accepted ++ seen.handed.flatten ∧
            y.canonical.content = d.trace.bytes ++ seen.handed.flatten := by
  intro e seen
  obtain ⟨x, j, hrun, hsent, hflatten⟩ := sent_run (e := e) rfl acts
  have hseen (w' : Writer) (files' : Files) :
      transcript ⟨.direct r w', files', drafts⟩ acts = seen := by
    have hinner : inner ⟨.direct r w', files', drafts⟩ = e.inner := rfl
    exact transcript_of_inner hinner acts
  refine ⟨hseen, ⟨x, j, hrun, hsent.canonical, hsent.files⟩, ?_⟩
  have hreached := run_of_transcript e acts
  change match seen.fault with
    | none => seen.observations.length = acts.length
    | some f => e.run acts = .error f at hreached
  cases hfault : seen.fault with
  | some f =>
    rw [hfault] at hreached
    exact hreached
  | none =>
    rw [hfault] at hreached
    rw [hreached, List.take_length] at hrun
    intro hcompletes d files' hd
    obtain ⟨y, hbeside, hcontent⟩ := run_beside hd hrun files'
    refine ⟨x, y, j, hrun, hbeside, ?_, ?_⟩
    · rw [hsent.canonical]
      exact Writer.accepted_handAll hcompletes
    · rw [hcontent, ← hflatten]

/-- Takes a few bytes at a time or none at all, and fails to flush. -/
def flakySink : Sink :=
  ⟨[.takeSome 3, .refuse .interrupted, .takeSome 0, .takeAll, .takeSome 20, .takeSome 500],
    .takeAll, [some .brokenPipe], []⟩

/-- A block is flushed out of a draft, and another one follows. -/
def flushedBlock : List (Act Bool) :=
  [.perform (some true) (.startBlock (Consumer.plainBlock 8)),
   .perform (some true) (.cancelBlock (Consumer.plainBlock 8) "reorg"),
   .flushBlock none true (canonical_ne _), .perform none (.startBlock (Consumer.plainBlock 9)),
   .perform none (.startCall .call)]

theorem trouble_stays_with_sink_flaky :
    let e : Ensemble Bool := ⟨.direct (.fresh true false) ⟨flakySink, ""⟩, ⟨[]⟩, sample.drafts⟩
    let seen := e.transcript flushedBlock
    seen.fault = none ∧ Writer.CompletesAll ⟨flakySink, ""⟩ ⟨[]⟩ seen.handed ∧
      (sample.drafts true).recorder = .fresh true false ∧
      ∃ x y j, e.run flushedBlock = .ok (x, j) ∧
        run ⟨.draft (sample.drafts true), ⟨[]⟩, sample.drafts⟩ flushedBlock = .ok (y, j) ∧
        x.canonical.content = [] ++ seen.handed.flatten ∧
        y.canonical.content = [] ++ seen.handed.flatten := by
  intro e seen
  have hcompletes : Writer.CompletesAll ⟨flakySink, ""⟩ ⟨[]⟩ seen.handed := by decide
  exact ⟨rfl, hcompletes, rfl,
    (trouble_stays_with_sink (.fresh true false) ⟨flakySink, ""⟩ ⟨[]⟩ sample.drafts
      flushedBlock).2.2 hcompletes (sample.drafts true) ⟨[]⟩ rfl⟩

end Ensemble
end EvmTrace
