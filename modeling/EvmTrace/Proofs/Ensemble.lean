import EvmTrace.Proofs.Speculation
import EvmTrace.Proofs.Standing
import Mathlib.Logic.Function.Basic

/-!
# Ensembles

A canonical tracer works together with drafts. The members take operations in any order; blocks are
lent to drafts, and drafts are flushed into other members. What one act does is said here once, and
what every act keeps is kept by runs.
-/
namespace EvmTrace

/-! ## Lending and flushing -/

theorem Draft.absorb_idle (d : Draft) : d.absorb (.idle d.recorder) = d := by
  simp [absorb, Step.idle, Step.trace, Step.pieces, Buffer.appendAll, buffer]

/-- What is left of a draft whose transaction has been handed on. -/
def Draft.released (d : Draft) : Draft := { d with recorder := d.recorder.leaveBlock, trace := [] }

theorem Draft.enterBlock_eq_ok {r : Recorder} {d d' : Draft} :
    d.enterBlock r = .ok d' ↔
      d.recorder.block = none ∧ d' = { d with recorder := r.lend d.recorder } := by
  simp only [enterBlock, bind_eq_ok, Recorder.require_eq_ok, pure_eq_ok, exists_const,
    Recorder.inBlock, Recorder.lend, Bool.not_eq_true', Option.isSome_eq_false_iff,
    Option.isNone_iff_eq_none]

namespace Recorder

variable {r : Recorder} {d d' : Draft} {s : Step}

theorem startSpeculative_eq_bind (r : Recorder) (d : Draft) (tx : Transaction) (index : UInt64)
    (baseFee : Option Word) :
    r.startSpeculative d tx index baseFee =
      (if r.enabled then r.requireInBlock else .ok ()) >>= fun _ =>
        (if d.recorder.enabled then d.enterBlock r else .ok d) >>= fun d =>
          d.recorder.perform (.startTransaction tx index baseFee) >>= fun s =>
            .ok (d.absorb s, s.notes) := by
  unfold startSpeculative
  cases r.enabled <;> cases d.recorder.enabled <;> rfl

/-- A draft that records starts a transaction in the block that it is lent; one that does not stays
as it is. -/
theorem startSpeculative_ok {tx : Transaction} {index : UInt64} {baseFee : Option Word}
    {notes : List Diagnostic} (h : r.startSpeculative d tx index baseFee = .ok (d', notes)) :
    (r.enabled = true → r.block ≠ none) ∧
      (d.recorder.enabled = false ∧ d' = d ∨
        d.recorder.enabled = true ∧ d.recorder.block = none ∧ d.recorder.inTransaction = false ∧
          d.recorder.calls.calls = [] ∧
          d' = d.absorb (.noted (r.lend d.recorder).enterTransaction
            (.transactionStarted index tx.hash)
            (.transactionStart (.ofTransaction tx index baseFee)))) := by
  rw [startSpeculative_eq_bind] at h
  obtain ⟨_, hlender, hstart⟩ := bind_eq_ok.mp h
  have hblock (henabled : r.enabled = true) : r.block ≠ none := by
    rw [if_pos henabled] at hlender
    exact requireInBlock_eq_ok.mp hlender
  refine ⟨hblock, ?_⟩
  obtain ⟨lent, hlent, hstart⟩ := bind_eq_ok.mp hstart
  obtain ⟨s, hs, hpair⟩ := bind_eq_ok.mp hstart
  obtain ⟨rfl, rfl⟩ := Prod.mk.inj (Except.ok.inj hpair)
  cases henabled : d.recorder.enabled with
  | false =>
    simp only [henabled, Bool.false_eq_true, if_false] at hlent
    obtain rfl := Except.ok.inj hlent
    rw [perform_disabled _ _ henabled] at hs
    obtain rfl := Except.ok.inj hs
    exact .inl ⟨rfl, Draft.absorb_idle _⟩
  | true =>
    rw [if_pos henabled] at hlent
    obtain ⟨houtside, rfl⟩ := Draft.enterBlock_eq_ok.mp hlent
    have hlends : (r.lend d.recorder).enabled = true := henabled
    rw [perform_enabled hlends] at hs
    obtain ⟨-, htransaction, hcalls, rfl⟩ := startTransaction_eq_ok.mp hs
    exact .inr ⟨rfl, houtside, htransaction, hcalls, rfl⟩

/-- Takes over what a draft holds; the numbering of its logs only if it is in a block. -/
def receive (r : Recorder) (d : Draft) : Step :=
  { r.handOver d with recorder := if d.recorder.inBlock then (r.handOver d).recorder else r }

@[simp] theorem trace_receive (r : Recorder) (d : Draft) : (r.receive d).trace = d.trace :=
  trace_handOver r d

theorem receive_eq (r : Recorder) (d : Draft) :
    (r.receive d).recorder = { r with nextLog := (r.receive d).recorder.nextLog } := by
  unfold receive
  cases d.recorder.inBlock <;> rfl

theorem flushTransaction_enabled (henabled : r.enabled = true) (d : Draft) :
    r.flushTransaction d = r.requireInBlock >>= fun _ =>
      d.recorder.require (!d.recorder.inTransaction) .openTransaction >>= fun _ =>
        d.recorder.require (!d.recorder.inBlock || d.recorder.blockNumber == r.blockNumber)
            .otherBlock >>= fun _ => .ok (r.receive d, d.released) := by
  unfold flushTransaction
  rw [if_neg (not_not.mpr henabled)]
  rfl

theorem sameBlock_iff {q : Recorder} : (!q.inBlock || q.blockNumber == r.blockNumber) = true ↔
    (q.block ≠ none → q.blockNumber = r.blockNumber) := by
  rw [← inBlock_iff]
  cases q.inBlock <;> simp

theorem flushTransaction_eq_ok (henabled : r.enabled = true) :
    r.flushTransaction d = .ok (s, d') ↔
      r.block ≠ none ∧ d.recorder.inTransaction = false ∧
        (d.recorder.block ≠ none → d.recorder.blockNumber = r.blockNumber) ∧
        s = r.receive d ∧ d' = d.released := by
  simp only [flushTransaction_enabled henabled, bind_eq_ok, requireInBlock_eq_ok, require_eq_ok,
    sameBlock_iff, exists_const, Bool.not_eq_true', Except.ok.injEq, Prod.mk.injEq,
    @eq_comm _ s, @eq_comm _ d']

theorem flushTransaction_disabled (h : r.enabled = false) (d : Draft) :
    r.flushTransaction d = .ok (.idle r, { d with recorder := d.recorder.leaveBlock }) := by
  simp [flushTransaction, h, pure, Except.pure]

/-- Takes over what a draft holds of finished blocks. -/
def receiveBlock (r : Recorder) (d : Draft) : Step :=
  ⟨r, [.note (.blockFlushed d.buffer.length), .forward d.trace], []⟩

@[simp] theorem trace_receiveBlock (r : Recorder) (d : Draft) :
    (r.receiveBlock d).trace = d.trace := by
  simp [receiveBlock, Step.trace, Output.trace]

theorem flushBlock_ok (henabled : r.enabled = true) (h : r.flushBlock d = .ok (s, d')) :
    d.recorder.block = none ∧ s = r.receiveBlock d ∧ d' = { d with trace := [] } := by
  unfold flushBlock at h
  rw [if_neg (not_not.mpr henabled)] at h
  obtain ⟨_, hended, h⟩ := bind_eq_ok.mp h
  obtain ⟨rfl, rfl⟩ := Prod.mk.inj (pure_eq_ok.mp h)
  exact ⟨by simpa [inBlock] using require_eq_ok.mp hended, rfl, rfl⟩

theorem flushBlock_disabled (h : r.enabled = false) (d : Draft) :
    r.flushBlock d = .ok (.idle r, d) := by
  simp [flushBlock, h, pure, Except.pure]

end Recorder

/-- The same place for the lines, with another recorder. -/
def Tracer.withRecorder (q : Recorder) : Tracer → Tracer
  | .direct _ w => .direct q w
  | .draft d => .draft { d with recorder := q }

/-! ## Members and their acts -/

structure Ensemble (ι : Type) where
  canonical : Tracer
  files : Files
  drafts : ι → Draft

namespace Ensemble

/-- What an ensemble is asked to do. The canonical tracer is the member `none`; no draft is lent a
block by itself or flushed into itself. -/
inductive Act (ι : Type)
  | perform (member : Option ι) (op : Operation)
  | start (lender : Option ι) (k : ι) (other : lender ≠ some k) (tx : Transaction)
      (index : UInt64) (baseFee : Option Word)
  | flushTransaction (receiver : Option ι) (k : ι) (other : receiver ≠ some k)
  | flushBlock (receiver : Option ι) (k : ι) (other : receiver ≠ some k)
  | abandon (k : ι)

theorem canonical_ne {ι : Type} (k : ι) : none ≠ some k := (Option.some_ne_none k).symm

/-- The lines that a member puts out in one act. -/
structure Entry (ι : Type) where
  member : Option ι
  lines : Trace

abbrev Journal (ι : Type) := List (Entry ι)

variable {ι : Type} [DecidableEq ι]

def Entry.of (entry : Entry ι) (m : Option ι) : Trace :=
  if entry.member = m then entry.lines else []

@[simp] theorem Entry.of_nil (m m' : Option ι) : Entry.of ⟨m, []⟩ m' = [] := by
  simp [Entry.of]

def Journal.of (j : Journal ι) (m : Option ι) : Trace := j.flatMap (Entry.of · m)

/-- Draws nothing from work that was done before. -/
structure Vacant (d : Draft) : Prop where
  trace : d.trace = []
  block : d.recorder.block = none

def recorder (e : Ensemble ι) : Option ι → Recorder
  | none => e.canonical.recorder
  | some k => (e.drafts k).recorder

def put (e : Ensemble ι) (k : ι) (d : Draft) : Ensemble ι :=
  { e with drafts := Function.update e.drafts k d }

/-- A member takes the step that its recorder made. -/
def take (e : Ensemble ι) (m : Option ι) (s : Step) : Ensemble ι :=
  match m with
  | none =>
    let o := e.canonical.take e.files s
    { e with canonical := o.tracer, files := o.files }
  | some k => e.put k ((e.drafts k).absorb s)

/-- Nothing has been recorded yet, and the canonical tracer is on. Drafts may be on or off. -/
structure Untouched (e : Ensemble ι) : Prop where
  canonical : ∃ progress, e.canonical.recorder = .fresh true progress
  drafts : ∀ k, ∃ enabled progress,
    (e.drafts k).recorder = .fresh enabled progress ∧ (e.drafts k).trace = []

def act (e : Ensemble ι) : Act ι → Except Fault (Ensemble ι × Entry ι)
  | .perform m op => do
    let s ← (e.recorder m).perform op
    return (e.take m s, ⟨m, s.trace⟩)
  | .start lender k _ tx index baseFee => do
    let (d, _) ← (e.recorder lender).startSpeculative (e.drafts k) tx index baseFee
    return (e.put k d, ⟨some k, d.trace.drop (e.drafts k).trace.length⟩)
  | .flushTransaction receiver k _ => do
    let (s, d) ← (e.recorder receiver).flushTransaction (e.drafts k)
    return ((e.put k d).take receiver s, ⟨receiver, s.trace⟩)
  | .flushBlock receiver k _ => do
    let (s, d) ← (e.recorder receiver).flushBlock (e.drafts k)
    return ((e.put k d).take receiver s, ⟨receiver, s.trace⟩)
  | .abandon k => .ok (e.put k (e.drafts k).abandon.1, ⟨some k, []⟩)

def run (e : Ensemble ι) : List (Act ι) → Except Fault (Ensemble ι × Journal ι)
  | [] => .ok (e, [])
  | a :: rest => do
    let (e, entry) ← e.act a
    let (e, journal) ← e.run rest
    return (e, entry :: journal)

/-! ## Members after a step -/

variable {e e' : Ensemble ι} {m m' : Option ι} {k : ι} {s : Step} {entry : Entry ι}

theorem recorder_take (e : Ensemble ι) (m : Option ι) (s : Step) :
    (e.take m s).recorder = Function.update e.recorder m s.recorder := by
  funext m'
  cases m with
  | none =>
    cases m' with
    | none => simp [take, recorder, Tracer.recorder_take]
    | some j => simp [take, recorder]
  | some k =>
    cases m' with
    | none => simp [take, put, recorder]
    | some j =>
      by_cases hj : j = k
      · subst hj
        simp [take, put, recorder, Draft.absorb]
      · simp [take, put, recorder, hj]

theorem recorder_put (e : Ensemble ι) (k : ι) (d : Draft) :
    (e.put k d).recorder = Function.update e.recorder (some k) d.recorder := by
  funext m
  cases m with
  | none => simp [put, recorder]
  | some j =>
    by_cases hj : j = k
    · subst hj
      simp [put, recorder]
    · simp [put, recorder, hj]

theorem recorder_emptied (e : Ensemble ι) (k : ι) :
    (e.put k { e.drafts k with trace := [] }).recorder = e.recorder := by
  rw [recorder_put]
  exact Function.update_eq_self (some k) e.recorder

/-- The lines that are with a member: those the canonical tracer has put out, or those that a draft
holds back. -/
def lines (e : Ensemble ι) (t : Trace) : Option ι → Trace
  | none => t
  | some k => (e.drafts k).trace

theorem lines_take (e : Ensemble ι) (t : Trace) (m m' : Option ι) (s : Step) :
    (e.take m s).lines (t ++ Entry.of ⟨m, s.trace⟩ none) m' =
      e.lines t m' ++ Entry.of ⟨m, s.trace⟩ m' := by
  cases m' with
  | none => rfl
  | some j =>
    cases m with
    | none => simp [take, lines, Entry.of]
    | some k =>
      by_cases hj : j = k
      · subst hj
        simp [take, put, lines, Entry.of]
      · simp [take, put, lines, Entry.of, hj, Ne.symm hj]

theorem lines_put (e : Ensemble ι) (t : Trace) (k : ι) (d : Draft) :
    (e.put k d).lines t = Function.update (e.lines t) (some k) d.trace := by
  funext m
  cases m with
  | none => simp [lines]
  | some j =>
    by_cases hj : j = k
    · subst hj
      simp [put, lines]
    · simp [put, lines, hj]

theorem put_drafts (e : Ensemble ι) (k : ι) : e.put k (e.drafts k) = e := by
  simp [put]

/-- One member gets another recorder and keeps its lines. -/
def withRecorder (e : Ensemble ι) (m : Option ι) (q : Recorder) : Ensemble ι :=
  match m with
  | none => { e with canonical := e.canonical.withRecorder q }
  | some k => e.put k { e.drafts k with recorder := q }

theorem recorder_withRecorder (e : Ensemble ι) (m : Option ι) (q : Recorder) :
    (e.withRecorder m q).recorder = Function.update e.recorder m q := by
  cases m with
  | some k => exact recorder_put e k _
  | none =>
    funext m
    cases m with
    | some k => rfl
    | none => cases hc : e.canonical <;> simp [withRecorder, recorder, hc, Tracer.withRecorder,
        Tracer.recorder]

theorem take_idle (e : Ensemble ι) (m : Option ι) : e.take m (.idle (e.recorder m)) = e := by
  cases m with
  | none =>
    obtain ⟨canonical, files, drafts⟩ := e
    cases canonical with
    | direct r w => rfl
    | draft d => simp [take, recorder, Tracer.take, Tracer.recorder, Draft.absorb_idle]
  | some k => simp [take, recorder, Draft.absorb_idle, put_drafts]

/-! ## What an act does -/

theorem act_perform_ok {op : Operation} (h : e.act (.perform m op) = .ok (e', entry)) :
    ∃ s, (e.recorder m).perform op = .ok s ∧ e' = e.take m s ∧ entry = ⟨m, s.trace⟩ := by
  obtain ⟨s, hs, hpair⟩ := bind_eq_ok.mp h
  obtain ⟨rfl, rfl⟩ := Prod.mk.inj (pure_eq_ok.mp hpair)
  exact ⟨s, hs, rfl, rfl⟩

/-- A draft takes the start of a transaction as a step of its own. -/
theorem act_start_ok {lender : Option ι} {other : lender ≠ some k} {tx : Transaction}
    {index : UInt64} {baseFee : Option Word}
    (h : e.act (.start lender k other tx index baseFee) = .ok (e', entry)) :
    ((e.recorder lender).enabled = true → (e.recorder lender).block ≠ none) ∧
      ∃ s, e' = e.take (some k) s ∧ entry = ⟨some k, s.trace⟩ ∧
        ((e.recorder (some k)).enabled = false ∧ s = .idle (e.recorder (some k)) ∨
          (e.recorder (some k)).enabled = true ∧ (e.recorder (some k)).block = none ∧
            (e.recorder (some k)).inTransaction = false ∧
            (e.recorder (some k)).calls.calls = [] ∧
            s = .noted ((e.recorder lender).lend (e.recorder (some k))).enterTransaction
              (.transactionStarted index tx.hash)
              (.transactionStart (.ofTransaction tx index baseFee))) := by
  obtain ⟨⟨d, notes⟩, hd, hpair⟩ := bind_eq_ok.mp h
  obtain ⟨rfl, rfl⟩ := Prod.mk.inj (pure_eq_ok.mp hpair)
  obtain ⟨hlender, ⟨hdisabled, rfl⟩ | ⟨henabled, hblock, htransaction, hcalls, rfl⟩⟩ :=
    Recorder.startSpeculative_ok hd
  · refine ⟨hlender, _, ?_, ?_, .inl ⟨hdisabled, rfl⟩⟩
    · rw [take_idle, put_drafts]
    · simp
  · refine ⟨hlender, _, rfl, ?_, .inr ⟨henabled, hblock, htransaction, hcalls, rfl⟩⟩
    simp

theorem lend_ok {tx : Transaction} {index : UInt64} {baseFee : Option Word} {lender : Option ι}
    {other : lender ≠ some k} (hdraft : (e.recorder (some k)).enabled = true)
    (h : e.act (.start lender k other tx index baseFee) = .ok (e', entry)) :
    (e'.recorder (some k)).block = some ⟨(e.recorder lender).blockNumber⟩ := by
  obtain ⟨-, s, rfl, -, ⟨hdisabled, -⟩ | ⟨-, -, -, -, rfl⟩⟩ := act_start_ok h
  · cases hdraft.symm.trans hdisabled
  · rw [recorder_take, Function.update_self]
    rfl

theorem act_flushTransaction_ok {receiver : Option ι} {other : receiver ≠ some k}
    (h : e.act (.flushTransaction receiver k other) = .ok (e', entry)) :
    let r := e.recorder receiver
    let d := e.drafts k
    (r.enabled = false ∧ e' = e.put k { d with recorder := d.recorder.leaveBlock } ∧
        entry = ⟨receiver, []⟩) ∨
      (r.enabled = true ∧ r.block ≠ none ∧ d.recorder.inTransaction = false ∧
        (d.recorder.block ≠ none → d.recorder.blockNumber = r.blockNumber) ∧
        e' = (e.put k d.released).take receiver (r.receive d) ∧ entry = ⟨receiver, d.trace⟩) := by
  intro r d
  obtain ⟨⟨s, d'⟩, hs, hpair⟩ := bind_eq_ok.mp h
  obtain ⟨rfl, rfl⟩ := Prod.mk.inj (pure_eq_ok.mp hpair)
  have hreceiver (d' : Draft) : (e.put k d').recorder receiver = r := by
    rw [recorder_put, Function.update_of_ne other]
  cases henabled : r.enabled with
  | false =>
    rw [Recorder.flushTransaction_disabled henabled] at hs
    obtain ⟨rfl, rfl⟩ := Prod.mk.inj (Except.ok.inj hs)
    refine .inl ⟨rfl, ?_, rfl⟩
    rw [← hreceiver { d with recorder := d.recorder.leaveBlock }, take_idle]
  | true =>
    obtain ⟨hblock, hended, hnumber, rfl, rfl⟩ := (Recorder.flushTransaction_eq_ok henabled).mp hs
    exact .inr ⟨rfl, hblock, hended, hnumber, rfl, by rw [Recorder.trace_receive]⟩

theorem act_flushBlock_ok {receiver : Option ι} {other : receiver ≠ some k}
    (h : e.act (.flushBlock receiver k other) = .ok (e', entry)) :
    let r := e.recorder receiver
    let d := e.drafts k
    (r.enabled = false ∧ e' = e ∧ entry = ⟨receiver, []⟩) ∨
      (r.enabled = true ∧ d.recorder.block = none ∧
        e' = (e.put k { d with trace := [] }).take receiver (r.receiveBlock d) ∧
        entry = ⟨receiver, d.trace⟩) := by
  intro r d
  obtain ⟨⟨s, d'⟩, hs, hpair⟩ := bind_eq_ok.mp h
  obtain ⟨rfl, rfl⟩ := Prod.mk.inj (pure_eq_ok.mp hpair)
  cases henabled : r.enabled with
  | false =>
    rw [Recorder.flushBlock_disabled henabled] at hs
    obtain ⟨rfl, rfl⟩ := Prod.mk.inj (Except.ok.inj hs)
    exact .inl ⟨rfl, by rw [put_drafts, take_idle], rfl⟩
  | true =>
    obtain ⟨hended, rfl, rfl⟩ := Recorder.flushBlock_ok henabled hs
    exact .inr ⟨rfl, hended, rfl, by rw [Recorder.trace_receiveBlock]⟩

/-- What an act can do to the recorder of a member. Who only receives lines keeps everything but
the number of the next log. -/
inductive Effect (e : Ensemble ι) (m : Option ι) (a : Act ι) (r : Recorder) : Prop
  | performs (op : Operation) (s : Step) (ha : a = .perform m op)
      (hs : (e.recorder m).perform op = .ok s) (hr : r = s.recorder)
  | lent (lender : Option ι) (k : ι) (other : lender ≠ some k) (tx : Transaction) (index : UInt64)
      (baseFee : Option Word) (hm : m = some k) (ha : a = .start lender k other tx index baseFee)
      (hr : r = ((e.recorder lender).lend (e.recorder m)).enterTransaction)
  | released (receiver : Option ι) (k : ι) (other : receiver ≠ some k) (hm : m = some k)
      (ha : a = .flushTransaction receiver k other) (hr : r = (e.recorder m).leaveBlock)
  | abandoned (k : ι) (hm : m = some k) (ha : a = .abandon k)
      (hr : r = (e.recorder m).leaveTransaction.leaveBlock)
  | counts (n : Nat) (hr : r = { e.recorder m with nextLog := n })

omit [DecidableEq ι] in
theorem Effect.same {a : Act ι} {r : Recorder} (h : r = e.recorder m) : Effect e m a r :=
  .counts _ h

theorem effect_act {a : Act ι} (h : e.act a = .ok (e', entry)) (m : Option ι) :
    Effect e m a (e'.recorder m) := by
  cases a with
  | perform m' op =>
    obtain ⟨s, hs, rfl, -⟩ := act_perform_ok h
    by_cases hm : m = m'
    · subst hm
      exact .performs op s rfl hs (by rw [recorder_take, Function.update_self])
    · exact .same (by rw [recorder_take, Function.update_of_ne hm])
  | start lender k other tx index baseFee =>
    obtain ⟨-, s, rfl, -, ⟨-, rfl⟩ | ⟨-, -, -, -, rfl⟩⟩ := act_start_ok h
    · exact .same (by rw [take_idle])
    · by_cases hm : m = some k
      · subst hm
        exact .lent lender k other tx index baseFee rfl rfl
          (by rw [recorder_take, Function.update_self]; rfl)
      · exact .same (by rw [recorder_take, Function.update_of_ne hm])
  | flushTransaction receiver k other =>
    rcases act_flushTransaction_ok h with ⟨-, rfl, -⟩ | ⟨-, -, -, -, rfl, -⟩
    · by_cases hm : m = some k
      · subst hm
        exact .released receiver k other rfl rfl (by rw [recorder_put, Function.update_self]; rfl)
      · exact .same (by rw [recorder_put, Function.update_of_ne hm])
    · by_cases hm : m = some k
      · subst hm
        refine .released receiver k other rfl rfl ?_
        rw [recorder_take, Function.update_of_ne other.symm, recorder_put, Function.update_self]
        rfl
      · by_cases hreceiver : m = receiver
        · -- the receiver takes over no more than the numbering
          subst hreceiver
          exact .counts _ (by rw [recorder_take, Function.update_self, Recorder.receive_eq])
        · exact .same (by rw [recorder_take, Function.update_of_ne hreceiver, recorder_put,
            Function.update_of_ne hm])
  | flushBlock receiver k other =>
    rcases act_flushBlock_ok h with ⟨-, rfl, -⟩ | ⟨-, -, rfl, -⟩
    · exact .same rfl
    · rw [recorder_take, recorder_emptied]
      exact .same (congrFun (Function.update_eq_self receiver e.recorder) m)
  | abandon k =>
    obtain ⟨rfl, -⟩ := Prod.mk.inj (Except.ok.inj h)
    by_cases hm : m = some k
    · subst hm
      exact .abandoned k rfl rfl (by rw [recorder_put, Function.update_self]; rfl)
    · exact .same (by rw [recorder_put, Function.update_of_ne hm])

/-- No act switches a member on or off. -/
theorem enabled_act {a : Act ι} (h : e.act a = .ok (e', entry)) (m : Option ι) :
    (e'.recorder m).enabled = (e.recorder m).enabled := by
  cases effect_act h m with
  | performs op s ha hs hr => rw [hr, Recorder.enabled_perform hs]
  | lent lender k other tx index baseFee hm ha hr => exact (congrArg Recorder.enabled hr).trans rfl
  | released receiver k other hm ha hr => exact (congrArg Recorder.enabled hr).trans rfl
  | abandoned k hm ha hr => exact (congrArg Recorder.enabled hr).trans rfl
  | counts n hr => rw [hr]

/-- Takes the member from one block to another, or out of all blocks. -/
def Act.Moves (m : Option ι) : Act ι → Prop
  | .perform m' op => m' = m ∧ op.isBoundary = true
  | .start _ k .. | .flushTransaction _ k _ | .abandon k => some k = m
  | .flushBlock .. => False

theorem block_act {a : Act ι} (hstays : ¬ a.Moves m) (h : e.act a = .ok (e', entry)) :
    (e'.recorder m).block = (e.recorder m).block := by
  cases effect_act h m with
  | performs op s ha hs hr =>
    subst ha
    rw [hr, Recorder.block_perform (by simpa [Act.Moves] using hstays) hs]
  | lent lender k other tx index baseFee hm ha hr => exact absurd (by subst hm ha; rfl) hstays
  | released receiver k other hm ha hr => exact absurd (by subst hm ha; rfl) hstays
  | abandoned k hm ha hr => exact absurd (by subst hm ha; rfl) hstays
  | counts n hr => rw [hr]

/-! ## Runs -/

variable {acts : List (Act ι)} {j : Journal ι} {a : Act ι}

theorem run_cons : e.run (a :: acts) = .ok (e', j) ↔ ∃ e₁ entry rest,
    e.act a = .ok (e₁, entry) ∧ e₁.run acts = .ok (e', rest) ∧ j = entry :: rest := by
  simp only [run, bind_eq_ok, pure_eq_ok, Prod.mk.injEq, Prod.exists]
  constructor
  · rintro ⟨e₁, entry, hact, e₂, rest, hrest, rfl, rfl⟩
    exact ⟨e₁, entry, rest, hact, hrest, rfl⟩
  · rintro ⟨e₁, entry, rest, hact, hrest, rfl⟩
    exact ⟨e₁, entry, hact, e', rest, hrest, rfl, rfl⟩

theorem run_cons_of_ok {e₁ : Ensemble ι} (h : e.act a = .ok (e₁, entry)) :
    e.run (a :: acts) = (e₁.run acts).map fun done => (done.1, entry :: done.2) := by
  rw [run, h, ok_bind]
  dsimp only
  cases e₁.run acts <;> rfl

theorem run_append {before after : List (Act ι)} :
    e.run (before ++ after) = .ok (e', j) ↔ ∃ e₁ j₁ j₂,
      e.run before = .ok (e₁, j₁) ∧ e₁.run after = .ok (e', j₂) ∧ j = j₁ ++ j₂ := by
  induction before generalizing e j with
  | nil => simp [run]
  | cons a before ih =>
    simp only [List.cons_append, run_cons, ih]
    constructor
    · rintro ⟨e₁, entry, _, hact, ⟨e₂, j₁, j₂, hbefore, hafter, rfl⟩, rfl⟩
      exact ⟨e₂, entry :: j₁, j₂, ⟨e₁, entry, j₁, hact, hbefore, rfl⟩, hafter, rfl⟩
    · rintro ⟨e₂, _, j₂, ⟨e₁, entry, j₁, hact, hbefore, rfl⟩, hafter, rfl⟩
      exact ⟨e₁, entry, j₁ ++ j₂, hact, ⟨e₂, j₁, j₂, hbefore, hafter, rfl⟩, rfl⟩

theorem run_concat {before : List (Act ι)} : e.run (before ++ [a]) = .ok (e', j) ↔
    ∃ e₁ j₁ entry, e.run before = .ok (e₁, j₁) ∧ e₁.act a = .ok (e', entry) ∧
      j = j₁ ++ [entry] := by
  simp only [run_append, run_cons]
  constructor
  · rintro ⟨e₁, j₁, _, hbefore, ⟨e₂, entry, rest, hact, hnil, rfl⟩, rfl⟩
    obtain ⟨rfl, rfl⟩ := Prod.mk.inj (Except.ok.inj hnil)
    exact ⟨e₁, j₁, entry, hbefore, hact, rfl⟩
  · rintro ⟨e₁, j₁, entry, hbefore, hact, rfl⟩
    exact ⟨e₁, j₁, [entry], hbefore, ⟨e', entry, [], hact, rfl, rfl⟩, rfl⟩

@[simp] theorem Journal.of_nil (m : Option ι) : Journal.of [] m = [] := rfl

@[simp] theorem Journal.of_cons (entry : Entry ι) (j : Journal ι) (m : Option ι) :
    Journal.of (entry :: j) m = entry.of m ++ j.of m := rfl

@[simp] theorem Journal.of_append (a b : Journal ι) (m : Option ι) :
    Journal.of (a ++ b) m = a.of m ++ b.of m := List.flatMap_append

/-- Holds of every act of a run where it is taken. -/
def Along (P : Ensemble ι → Act ι → Prop) (e : Ensemble ι) : List (Act ι) → Prop
  | [] => True
  | a :: rest =>
    P e a ∧ match e.act a with
      | .ok (e', _) => Along P e' rest
      | .error _ => True

theorem Along.of_append {P : Ensemble ι → Act ι → Prop} {before after : List (Act ι)}
    (h : Along P e (before ++ after)) : Along P e before := by
  induction before generalizing e with
  | nil => trivial
  | cons a before ih =>
    obtain ⟨hP, halong⟩ := h
    refine ⟨hP, ?_⟩
    cases ha : e.act a with
    | error f => trivial
    | ok done =>
      rw [ha] at halong
      exact ih halong

theorem along_append {P : Ensemble ι → Act ι → Prop} {before after : List (Act ι)}
    (h : Along P e (before ++ after)) (hrun : e.run before = .ok (e', j)) :
    Along P e before ∧ Along P e' after := by
  refine ⟨h.of_append, ?_⟩
  induction before generalizing e j with
  | nil =>
    obtain ⟨rfl, rfl⟩ := Prod.mk.inj (Except.ok.inj hrun)
    exact h
  | cons a before ih =>
    obtain ⟨e₁, entry, rest, ha, hrest, rfl⟩ := run_cons.mp hrun
    obtain ⟨-, halong⟩ := h
    rw [ha] at halong
    exact ih halong hrest

theorem along_of_forall {P : Ensemble ι → Act ι → Prop} (h : ∀ a ∈ acts, ∀ e, P e a) :
    Along P e acts := by
  induction acts generalizing e with
  | nil => trivial
  | cons a acts ih =>
    refine ⟨h a List.mem_cons_self e, ?_⟩
    cases e.act a with
    | error f => trivial
    | ok done => exact ih fun a ha => h a (List.mem_cons_of_mem _ ha)

theorem Along.imp {P Q : Ensemble ι → Act ι → Prop} (h : ∀ e a, P e a → Q e a)
    (hP : Along P e acts) : Along Q e acts := by
  induction acts generalizing e with
  | nil => trivial
  | cons a acts ih =>
    obtain ⟨ha, hrest⟩ := hP
    refine ⟨h e a ha, ?_⟩
    cases hact : e.act a with
    | error f => trivial
    | ok done =>
      rw [hact] at hrest
      exact ih hrest

theorem along_of_kept {Q : Ensemble ι → Prop} (hkept : ∀ {e a e' entry}, Q e →
    e.act a = .ok (e', entry) → Q e') (h : Q e) : Along (fun e _ => Q e) e acts := by
  induction acts generalizing e with
  | nil => trivial
  | cons a acts ih =>
    refine ⟨h, ?_⟩
    cases ha : e.act a with
    | error f => trivial
    | ok done => exact ih (hkept h ha)

/-- What is asked for in one case only. -/
theorem along_when {P : Ensemble ι → Act ι → Prop} {c : Bool} (h : c = true → Along P e acts) :
    Along (fun e a => c = true → P e a) e acts := by
  cases c with
  | false => exact along_of_forall fun _ _ _ hfalse => by cases hfalse
  | true => exact (h rfl).imp fun _ _ ha _ => ha

theorem Along.and {P Q : Ensemble ι → Act ι → Prop} (hP : Along P e acts) (hQ : Along Q e acts) :
    Along (fun e a => P e a ∧ Q e a) e acts := by
  induction acts generalizing e with
  | nil => trivial
  | cons a acts ih =>
    refine ⟨⟨hP.1, hQ.1⟩, ?_⟩
    have hP := hP.2
    have hQ := hQ.2
    cases ha : e.act a with
    | error f => trivial
    | ok done =>
      rw [ha] at hP hQ
      exact ih hP hQ

/-- What acts keep, runs keep. -/
theorem run_induction (P : Ensemble ι → Act ι → Prop) (Inv : Ensemble ι → Trace → Prop)
    (hact : ∀ e t a e' entry, Inv e t → P e a → e.act a = .ok (e', entry) →
      Inv e' (t ++ entry.of none))
    {t : Trace} (hinv : Inv e t) (halong : Along P e acts) (hrun : e.run acts = .ok (e', j)) :
    Inv e' (t ++ j.of none) := by
  induction acts generalizing e t j with
  | nil =>
    obtain ⟨rfl, rfl⟩ := Prod.mk.inj (Except.ok.inj hrun)
    simpa using hinv
  | cons a acts ih =>
    obtain ⟨e₁, entry, rest, ha, hrest, rfl⟩ := run_cons.mp hrun
    obtain ⟨hP, halong⟩ := halong
    rw [ha] at halong
    rw [Journal.of_cons, ← List.append_assoc]
    exact ih (hact _ _ _ _ _ hinv hP ha) halong hrest

theorem block_run (hstays : ∀ a ∈ acts, ¬ a.Moves m) (hrun : e.run acts = .ok (e', j)) :
    (e'.recorder m).block = (e.recorder m).block :=
  run_induction (fun _ a => ¬ a.Moves m)
    (fun e' _ => (e'.recorder m).block = (e.recorder m).block) (t := [])
    (fun _ _ _ _ _ hblock hstays hact => (block_act hstays hact).trans hblock) rfl
    (along_of_forall fun a ha _ => hstays a ha) hrun

theorem enabled_run (hrun : e.run acts = .ok (e', j)) (m : Option ι) :
    (e'.recorder m).enabled = (e.recorder m).enabled :=
  run_induction (fun _ _ => True)
    (fun e' _ => (e'.recorder m).enabled = (e.recorder m).enabled) (t := [])
    (fun _ _ _ _ _ henabled _ hact => (enabled_act hact m).trans henabled) rfl
    (along_of_forall fun _ _ _ => trivial) hrun

/-! ## What gets into the canonical sink -/

theorem content_take (h : e.canonical.AcceptsAll) (m : Option ι) (s : Step) :
    (e.take m s).canonical.AcceptsAll ∧ (e.take m s).canonical.content =
      e.canonical.content ++ (Entry.of ⟨m, s.trace⟩ none).bytes := by
  cases m with
  | none =>
    obtain ⟨haccepts, -, hcontent⟩ := Tracer.take_of_acceptsAll h e.files s
    exact ⟨haccepts, hcontent⟩
  | some k => exact ⟨h, by simp [take, put, Entry.of, Trace.bytes]⟩

theorem content_act (h : e.canonical.AcceptsAll) (hact : e.act a = .ok (e', entry)) :
    e'.canonical.AcceptsAll ∧
      e'.canonical.content = e.canonical.content ++ (entry.of none).bytes := by
  have hput (k : ι) (d : Draft) (m : Option ι) {s : Step} {lines : Trace} (hs : s.trace = lines) :
      ((e.put k d).take m s).canonical.AcceptsAll ∧ ((e.put k d).take m s).canonical.content =
        e.canonical.content ++ (Entry.of ⟨m, lines⟩ none).bytes :=
    hs ▸ content_take (e := e.put k d) h m s
  cases a with
  | perform m op =>
    obtain ⟨s, -, rfl, rfl⟩ := act_perform_ok hact
    exact content_take h m s
  | start lender k other tx index baseFee =>
    obtain ⟨-, s, rfl, rfl, -⟩ := act_start_ok hact
    exact content_take h (some k) s
  | flushTransaction receiver k other =>
    rcases act_flushTransaction_ok hact with ⟨-, rfl, rfl⟩ | ⟨-, -, -, -, rfl, rfl⟩
    · exact ⟨h, by simp [put, Trace.bytes]⟩
    · exact hput k _ receiver (Recorder.trace_receive ..)
  | flushBlock receiver k other =>
    rcases act_flushBlock_ok hact with ⟨-, rfl, rfl⟩ | ⟨-, -, rfl, rfl⟩
    · exact ⟨h, by simp [Trace.bytes]⟩
    · exact hput k _ receiver (Recorder.trace_receiveBlock ..)
  | abandon k =>
    obtain ⟨rfl, rfl⟩ := Prod.mk.inj (Except.ok.inj hact)
    exact ⟨h, by simp [put, Trace.bytes]⟩

/-- A canonical sink that accepts every write holds the lines that the canonical tracer put out. -/
theorem content_run (h : e.canonical.AcceptsAll) (hrun : e.run acts = .ok (e', j)) :
    e'.canonical.content = e.canonical.content ++ (j.of none).bytes := by
  induction acts generalizing e j with
  | nil =>
    obtain ⟨rfl, rfl⟩ := Prod.mk.inj (Except.ok.inj hrun)
    simp [Trace.bytes]
  | cons a acts ih =>
    obtain ⟨e₁, entry, rest, ha, hrest, rfl⟩ := run_cons.mp hrun
    obtain ⟨haccepts, hcontent⟩ := content_act h ha
    rw [ih haccepts hrest, hcontent, Journal.of_cons, Trace.bytes_append, List.append_assoc]

/-! ## A small ensemble -/

/-- Two drafts beside a tracer whose sink takes everything. -/
def sample : Ensemble Bool :=
  ⟨.direct (.fresh true false) ⟨.accepting, ""⟩, ⟨[]⟩, fun _ => .onBuffer ⟨[], 0⟩ true false⟩

theorem untouched_sample : sample.Untouched := ⟨⟨false, rfl⟩, fun _ => ⟨true, false, rfl, rfl⟩⟩

def startSample (k : Bool) : Act Bool :=
  .start none k (canonical_ne k) Consumer.plainTransaction 0 none

end Ensemble
end EvmTrace
