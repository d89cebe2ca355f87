import EvmTrace.Proofs.Placement
import EvmTrace.Proofs.Reuse
import Mathlib.Data.List.ReduceOption

/-!
# Relayed blocks

A draft can record whole blocks in the place of the canonical tracer, and hand them on between
blocks, whenever the node likes. The sink of the receiver then gets what the canonical tracer would
have put out, piece by piece, and nothing in the draft but its buffer shows that it was flushed.
-/
namespace EvmTrace

/-! ## One write for one piece -/

def Sink.writes (s : Sink) : List Sink.Call := s.calls.reverse.filter Call.isWrite

/-- Takes a piece in one go; nothing is written for an empty one. -/
def Sink.wholeWrite (b : Bytes) : List Sink.Call :=
  if b = [] then [] else [.write b (.ok b.length)]

def Tracer.writes (t : Tracer) : List Sink.Call := t.writer?.elim [] (·.sink.writes)

/-- Is on, and over a sink that takes everything. -/
def Tracer.Receives (t : Tracer) : Prop :=
  ∃ r w, t = .direct r w ∧ r.enabled = true ∧ w.sink.AcceptsAll

theorem Tracer.Receives.enabled {t : Tracer} (h : t.Receives) : t.recorder.enabled = true := by
  obtain ⟨r, w, rfl, hon, -⟩ := h
  exact hon

theorem Writer.writes_deliver {w : Writer} (h : w.sink.AcceptsAll) (files : Files) (b : Bytes) :
    (w.deliver files b).writer.sink.writes = w.sink.writes ++ Sink.wholeWrite b := by
  by_cases hb : b = []
  · subst hb
    rw [deliver_nil]
    exact (List.append_nil _).symm
  · obtain ⟨hanswer, -, -⟩ := Sink.write_of_acceptsAll h b
    have hcalls : (w.sink.write b).2.flush.2.calls =
        .flush (w.sink.write b).2.flush.1 :: .write b (w.sink.write b).1 :: w.sink.calls := rfl
    rw [deliver_of_ne_nil h files hb, sink_complete, Sink.writes, hcalls, hanswer]
    simp [Sink.writes, Sink.wholeWrite, List.filter, Sink.Call.isWrite, hb]

theorem Recorder.flushBlock_of_ended {r : Recorder} {d : Draft} (henabled : r.enabled = true)
    (hended : d.recorder.inBlock = false) :
    r.flushBlock d = .ok (r.receiveBlock d, { d with trace := [] }) := by
  simp [flushBlock, receiveBlock, henabled, hended, require, bind, Except.bind, pure, Except.pure]

namespace Ensemble

variable {ι κ : Type} [DecidableEq ι] [DecidableEq κ]

/-! ## What leaves the canonical tracer alone -/

theorem canonical_take {m : Option ι} (hm : m ≠ none) (e : Ensemble ι) (s : Step) :
    (e.take m s).canonical = e.canonical := by
  cases m with
  | none => exact absurd rfl hm
  | some k => rfl

omit [DecidableEq ι] in
/-- Where a draft sits in for the canonical tracer, the one of the larger ensemble is idle. -/
theorem canonical_placed {p : Placement ι κ} (hseat : p.seat ≠ none) {e e' : Ensemble κ}
    {a : Act ι} {entry : Entry κ} (h : e.act (a.placed p) = .ok (e', entry)) :
    e'.canonical = e.canonical := by
  have hmember (m : Option ι) : p.member m ≠ none := by
    cases m with
    | none => exact hseat
    | some k => exact Option.some_ne_none _
  cases a with
  | perform m op =>
    obtain ⟨s, -, rfl, -⟩ := act_perform_ok h
    exact canonical_take (hmember m) e s
  | start lender k other tx index baseFee =>
    obtain ⟨-, s, rfl, -⟩ := act_start_ok h
    exact canonical_take (Option.some_ne_none _) e s
  | flushTransaction receiver k other =>
    rcases act_flushTransaction_ok h with ⟨-, rfl, -⟩ | ⟨-, -, -, -, rfl, -⟩
    · rfl
    · exact canonical_take (hmember receiver) _ _
  | flushBlock receiver k other =>
    rcases act_flushBlock_ok h with ⟨-, rfl, -⟩ | ⟨-, -, rfl, -⟩
    · rfl
    · exact canonical_take (hmember receiver) _ _
  | abandon k =>
    obtain ⟨rfl, -⟩ := Prod.mk.inj (Except.ok.inj h)
    rfl

/-! ## The draft in the place of the canonical tracer -/

/-- The draft `none` stands in for the canonical tracer, all others keep their places. -/
def relay (ι : Type) : Placement ι (Option ι) where
  seat := some none
  host := some
  injective _ _ h := Option.some.inj h
  free k h := canonical_ne k (Option.some.inj h)

/-- Acts of the members, with a flush of the draft that stands in wherever there is no act. -/
def relayed : Option (Act ι) → Act (Option ι)
  | some a => a.placed (relay ι)
  | none => .flushBlock none none (canonical_ne none)

/-- The draft that stands in is flushed only while it is out of all blocks. -/
def Act.FlushesOutside (e : Ensemble (Option ι)) : Act (Option ι) → Prop
  | .flushBlock none none _ => (e.recorder (some none)).inBlock = false
  | _ => True

/-- A new draft stands in for a new tracer over a sink that takes everything. -/
structure Relays (d : Ensemble ι) (e : Ensemble (Option ι)) : Prop where
  direct : ∃ progress w, d.canonical = .direct (.fresh true progress) w ∧ w.sink.AcceptsAll
  draft : ∃ b progress, e.drafts none = .onBuffer b true progress
  others : ∀ k, e.drafts (some k) = d.drafts k
  receiver : e.canonical.Receives

/-- What is kept by all that the members do. -/
structure Abreast (d : Ensemble ι) (e : Ensemble (Option ι)) : Prop where
  mirrors : Mirrors (relay ι) d e
  acceptsAll : d.canonical.AcceptsAll
  receiver : e.canonical.Receives

/-- The bytes that the draft holds back. -/
def pending (e : Ensemble (Option ι)) : Bytes := (e.drafts none).buffer.content

variable {d : Ensemble ι} {e : Ensemble (Option ι)}

omit [DecidableEq ι] in
theorem Relays.abreast (h : Relays d e) : Abreast d e := by
  obtain ⟨progress, w, hcanonical, haccepts⟩ := h.direct
  obtain ⟨b, progress', hdraft⟩ := h.draft
  refine ⟨⟨fun m => ?_, fun k => ?_, fun hseat => ?_⟩, ?_, h.receiver⟩
  · cases m with
    | none =>
      simp only [Placement.member, relay, recorder, hcanonical, hdraft]
      exact .fresh true progress fun hoff => by cases hoff
    | some k =>
      simp only [Placement.member, relay, recorder, h.others k]
      exact .refl _
  · exact congrArg Draft.trace (h.others k)
  · exact absurd hseat (Option.some_ne_none _)
  · rw [hcanonical]
    exact haccepts

/-- What an act adds to the sink of the direct tracer, it adds to the draft that stands in. -/
theorem Abreast.act (h : Abreast d e) (a : Act ι) :
    Concur (fun x y => Abreast x.1 y.1 ∧ y.1.canonical = e.canonical ∧
        x.1.canonical.content = d.canonical.content ++ (x.2.of none).bytes ∧
        y.1.pending = e.pending ++ (x.2.of none).bytes)
      (d.act a) (e.act (relayed (some a))) := by
  have hkeeps : ¬ (relayed (some a)).Empties none := by
    cases a <;> simp [relayed, Act.placed, Act.Empties, relay]
  refine (h.mirrors.act a).imp fun x y hx hy hxy => ?_
  obtain ⟨hmirrors, hentry⟩ := hxy
  obtain ⟨haccepts, hcontent⟩ := content_act h.acceptsAll hx
  have hcanonical : y.1.canonical = e.canonical :=
    canonical_placed (p := relay ι) (Option.some_ne_none _) hy
  refine ⟨⟨hmirrors, haccepts, ?_⟩, hcanonical, hcontent, ?_⟩
  · rw [hcanonical]
    exact h.receiver
  · -- the entry of the canonical tracer is that of the draft in its place
    have hof : y.2.of (some none) = x.2.of none := by
      rw [hentry]
      exact Entry.of_placed (relay ι) x.2 none
    rw [pending, Draft.buffer, trace_act hkeeps hy, hof, Trace.bytes_append]
    rfl

/-- What is left when a receiver has taken the lines of the draft that stands in. -/
def handedOn (e : Ensemble (Option ι)) : Ensemble (Option ι) :=
  (e.put none { e.drafts none with trace := [] }).take none
    ((e.recorder none).receiveBlock (e.drafts none))

theorem recorder_handedOn (e : Ensemble (Option ι)) : e.handedOn.recorder = e.recorder := by
  rw [handedOn, recorder_take, recorder_emptied]
  exact Function.update_eq_self none e.recorder

theorem canonical_handedOn {r : Recorder} {w : Writer} (h : e.canonical = .direct r w) :
    e.handedOn.canonical = .direct r (w.deliver e.files e.pending).writer := by
  simp only [handedOn, take, put, recorder, h]
  rfl

/-- A flush hands on all that is pending and changes nothing else. -/
theorem Abreast.flush (h : Abreast d e) (hout : (e.recorder (some none)).inBlock = false) :
    ∃ entry, e.act (relayed none) = .ok (e.handedOn, entry) ∧ Abreast d e.handedOn ∧
      e.handedOn.canonical.content = e.canonical.content ++ e.pending ∧
      e.handedOn.canonical.writes = e.canonical.writes ++ Sink.wholeWrite e.pending := by
  obtain ⟨r, w, hcanonical, hon, haccepts⟩ := h.receiver
  obtain ⟨haccepts', -, haccepted⟩ := Writer.deliver_of_acceptsAll haccepts e.files e.pending
  have hdelivered := canonical_handedOn hcanonical
  have hflush : (e.recorder none).flushBlock (e.drafts none) = .ok _ :=
    Recorder.flushBlock_of_ended h.receiver.enabled hout
  refine ⟨_, bind_eq_ok.mpr ⟨_, hflush, rfl⟩, ⟨⟨?_, ?_, ?_⟩, h.acceptsAll, ?_⟩, ?_, ?_⟩
  · intro m
    rw [recorder_handedOn]
    exact h.mirrors.recorders m
  · intro k
    have hdraft : e.handedOn.drafts (some k) = e.drafts (some k) := by
      simp [handedOn, take, put]
    exact (congrArg Draft.trace hdraft).trans (h.mirrors.traces k)
  · exact fun hseat => absurd hseat (Option.some_ne_none _)
  · exact ⟨r, _, hdelivered, hon, haccepts'⟩
  · rw [hdelivered, hcanonical]
    exact haccepted
  · rw [hdelivered, hcanonical]
    exact Writer.writes_deliver haccepts e.files e.pending

theorem pending_handedOn (e : Ensemble (Option ι)) : e.handedOn.pending = [] := by
  simp [handedOn, pending, take, put, Draft.buffer, Trace.bytes]

/-! ## Plans -/

/-- What some acts and flushes have brought in all: the gain of the direct tracer went to the
receiver in pieces, one for each flush, up to what is still pending. -/
structure Carried (plan : List (Option (Act ι))) (d x : Ensemble ι) (e y : Ensemble (Option ι))
    (gained : Bytes) (pieces : List Bytes) : Prop where
  abreast : Abreast x y
  flushes : pieces.length = plan.countP Option.isNone
  direct : x.canonical.content = d.canonical.content ++ gained
  balance : e.pending ++ gained = pieces.flatten ++ y.pending
  content : y.canonical.content = e.canonical.content ++ pieces.flatten
  writes : y.canonical.writes = e.canonical.writes ++ pieces.flatMap Sink.wholeWrite

theorem Abreast.run {plan : List (Option (Act ι))} (h : Abreast d e)
    (hout : Along Act.FlushesOutside e (plan.map relayed)) :
    Concur (fun x y => ∃ gained pieces, Carried plan d x.1 e y.1 gained pieces)
        (d.run plan.reduceOption) (e.run (plan.map relayed)) ∧
      e.started (plan.map relayed) = d.started plan.reduceOption := by
  induction plan generalizing d e with
  | nil => exact ⟨⟨[], [], h, rfl, by simp, by simp, by simp, by simp⟩, rfl⟩
  | cons step plan ih =>
    obtain ⟨hfirst, hlater⟩ := hout
    cases step with
    | none =>
      obtain ⟨entry, hact, habreast, hcontent, hwrites⟩ := h.flush hfirst
      rw [hact] at hlater
      obtain ⟨hrun, hstarted⟩ := ih habreast hlater
      rw [List.reduceOption_cons_of_none, List.map_cons, run_cons_of_ok hact]
      constructor
      · refine hrun.map_right fun x y hcarried => ?_
        obtain ⟨gained, pieces, hxy⟩ := hcarried
        refine ⟨gained, e.pending :: pieces, hxy.abreast, ?_, hxy.direct, ?_, ?_, ?_⟩
        · simpa using hxy.flushes
        · have hbalance := hxy.balance
          rw [pending_handedOn, List.nil_append] at hbalance
          rw [hbalance, List.flatten_cons, List.append_assoc]
        · rw [hxy.content, hcontent, List.flatten_cons, List.append_assoc]
        · rw [hxy.writes, hwrites, List.flatMap_cons, List.append_assoc]
      · rw [started, hact]
        exact hstarted
    | some a =>
      have hact := (h.act a).imp fun x y _ hy hxy => by
        rw [hy] at hlater
        exact And.intro hxy (ih hxy.1 hlater)
      rw [List.reduceOption_cons_of_some, List.map_cons]
      constructor
      · refine hact.bind fun x y hxy => ?_
        obtain ⟨⟨-, hcanonical, hcontent, hpending⟩, hrun, -⟩ := hxy
        refine hrun.bind fun u v hcarried => ?_
        obtain ⟨gained, pieces, huv⟩ := hcarried
        refine ⟨(x.2.of none).bytes ++ gained, pieces, huv.abreast, ?_, ?_, ?_, ?_, ?_⟩
        · simpa using huv.flushes
        · rw [huv.direct, hcontent, List.append_assoc]
        · rw [← huv.balance, hpending, List.append_assoc]
        · rw [huv.content, hcanonical]
        · rw [huv.writes, hcanonical]
      · rw [started, started, show relayed (some a) = a.placed (relay ι) from rfl,
          h.mirrors.callsOf a]
        exact hact.split (fun _ _ _ => rfl) fun x y hxy => congrArg _ hxy.2.2

theorem pending_of_flushed {y : Ensemble (Option ι)} {j : Journal (Option ι)}
    {plan : List (Option (Act ι))} (hon : (e.recorder none).enabled = true)
    (hlast : plan.getLast? = some none) (hrun : e.run (plan.map relayed) = .ok (y, j)) :
    y.pending = [] := by
  obtain ⟨before, rfl⟩ := List.getLast?_eq_some_iff.mp hlast
  rw [List.map_append] at hrun
  obtain ⟨e₁, j₁, entry, hbefore, hact, -⟩ := run_concat.mp hrun
  have hon₁ := (enabled_run hbefore none).trans hon
  have hempties : (relayed (none : Option (Act ι))).Empties none := rfl
  rw [pending, Draft.buffer, trace_of_empties hempties (fun _ => hon₁) hact]
  rfl

/-- Whatever is recorded in a draft instead of over a sink, and wherever it is flushed between its
blocks: the same calls are started, the same act is stopped with the same message, and the receiver
gets, in one write for each flush that has anything to hand on, just what the direct tracer puts
out, all of it behind a last flush. -/
theorem relayed_blocks_refine_direct (h : Relays d e) (plan : List (Option (Act ι)))
    (hout : Along Act.FlushesOutside e (plan.map relayed)) {done : List (Option (Act ι))}
    (hdone : done <+: plan) :
    e.started (done.map relayed) = d.started done.reduceOption ∧
      match d.run done.reduceOption, e.run (done.map relayed) with
      | .ok (x, _), .ok (y, _) => ∃ pieces : List Bytes,
          pieces.length = done.countP Option.isNone ∧
          x.canonical.content = d.canonical.content ++ (pieces.flatten ++ y.pending) ∧
          y.canonical.content = e.canonical.content ++ pieces.flatten ∧
          y.canonical.writes = e.canonical.writes ++ pieces.flatMap Sink.wholeWrite ∧
          (done.getLast? = some none → y.pending = []) ∧ Mirrors (relay ι) x y
      | .error f, .error g => g.message = f.message
      | _, _ => False := by
  obtain ⟨later, rfl⟩ := hdone
  rw [List.map_append] at hout
  obtain ⟨hrun, hstarted⟩ := h.abreast.run hout.of_append
  have hpending : e.pending = [] := by
    obtain ⟨b, progress, hdraft⟩ := h.draft
    rw [pending, hdraft]
    rfl
  refine ⟨hstarted, ?_⟩
  refine (hrun.imp fun x y _ hy hxy =>
    And.intro hxy (pending_of_flushed h.receiver.enabled · hy)).split
      (fun f g hfaults => hfaults.message) ?_
  rintro ⟨x, _⟩ ⟨y, _⟩ ⟨⟨gained, pieces, hxy⟩, hlast⟩
  have hbalance := hxy.balance
  rw [hpending, List.nil_append] at hbalance
  exact ⟨pieces, hxy.flushes, hbalance ▸ hxy.direct, hxy.content, hxy.writes, hlast,
    hxy.abreast.mirrors⟩

/-- A draft in the place of the tracer of the small ensemble. -/
def relaySample : Ensemble (Option Bool) :=
  ⟨.direct (.fresh true false) ⟨.accepting, ""⟩, ⟨[]⟩, fun _ => .onBuffer ⟨[], 0⟩ true false⟩

/-- A block that takes a transaction from another draft, and a block that is cancelled, each of them
flushed. -/
def twoBlocks : List (Option (Act Bool)) :=
  [some (.perform none (.startBlock (Consumer.plainBlock 7))), some (startSample false),
    some (.perform (some false) (.failTransaction "bad nonce")),
    some (.flushTransaction none false (canonical_ne _)),
    some (.perform none (.endBlock (Consumer.plainBlock 7) none)), none,
    some (.perform none (.startBlock (Consumer.plainBlock 8))),
    some (.perform none (.cancelBlock (Consumer.plainBlock 8) "reorg")), none]

theorem relays_sample : Relays sample relaySample :=
  ⟨⟨false, _, rfl, Sink.acceptsAll_accepting⟩, ⟨_, false, rfl⟩, fun _ => rfl,
    ⟨_, _, rfl, rfl, Sink.acceptsAll_accepting⟩⟩

theorem relayed_blocks_refine_direct_twoBlocks :
    Relays sample relaySample ∧
      Along Act.FlushesOutside relaySample (twoBlocks.map relayed) ∧ twoBlocks <+: twoBlocks ∧
      ∃ x j y j', sample.run twoBlocks.reduceOption = .ok (x, j) ∧
        relaySample.run (twoBlocks.map relayed) = .ok (y, j') ∧
        ∃ pieces : List Bytes, pieces.length = 2 ∧ y.pending = [] ∧
          x.canonical.content = pieces.flatten ++ y.pending ∧
          y.canonical.content = pieces.flatten ∧
          y.canonical.writes = pieces.flatMap Sink.wholeWrite := by
  have hout : Along Act.FlushesOutside relaySample (twoBlocks.map relayed) :=
    .intro trivial <| .intro trivial <| .intro trivial <| .intro trivial <| .intro trivial <|
      .intro rfl <| .intro trivial <| .intro trivial <| .intro rfl trivial
  obtain ⟨-, pieces, hcount, hdirect, hcontent, hwrites, hlast, -⟩ :=
    relayed_blocks_refine_direct relays_sample twoBlocks hout List.prefix_rfl
  exact ⟨relays_sample, hout, List.prefix_rfl, _, _, _, _, rfl, rfl, pieces, hcount, hlast rfl,
    hdirect, hcontent, hwrites⟩

end Ensemble
end EvmTrace
