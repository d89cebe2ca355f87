import EvmTrace.Proofs.Frames
import EvmTrace.Proofs.Recording

/-!
# Transactions on trial

A node may record each transaction in a draft, and flush or abandon the draft once it knows whether
the transaction is kept. The trace is that of a node that knew this before and recorded only the
transactions that are kept, without a draft.
-/
namespace EvmTrace

inductive Fate
  | ended (receipt : Receipt)
  | failed (reason : String)
  | abandoned

namespace Fate

def isCommitted : Fate → Bool
  | abandoned => false
  | _ => true

/-- What is recorded last; a transaction that is abandoned may stop anywhere. -/
def closing : Fate → List Operation
  | ended receipt => [.endTransaction receipt]
  | failed reason => [.failTransaction reason]
  | abandoned => []

end Fate

/-- A transaction that is executed, with all that is recorded inside. -/
structure Execution where
  tx : Transaction
  index : UInt64
  baseFee : Option Word
  body : List Operation
  fate : Fate

namespace Execution

def start (x : Execution) : Operation := .startTransaction x.tx x.index x.baseFee

def script (x : Execution) : List Operation := x.body ++ x.fate.closing

/-- Some recorder takes the script right behind the start of a transaction. -/
structure Accepted (x : Execution) : Prop where
  transactional : ∀ op ∈ x.body, op.isTransactional = true
  taken : ∃ r s, Recorder.run r x.script = .ok s ∧
    r.enabled = true ∧ r.inTransaction = true ∧ r.calls = .empty

end Execution

/-- What a node does inside a block. -/
inductive Work
  | change (op : Operation)
  | execute (x : Execution)

namespace Work

def Accepted : Work → Prop
  | change op => op.isChange = true ∧ ∃ r s, Recorder.record r op = .ok s
  | execute x => x.Accepted

def commits : Work → Bool
  | change _ => false
  | execute x => x.fate.isCommitted

end Work

/-- The tracer of a block, and the numbers of the calls of each transaction that was kept. -/
structure Desk where
  tracer : Tracer
  files : Files
  calls : List (List Nat)

namespace Desk

def change (k : Desk) (op : Operation) : Except Fault Desk := do
  let (o, _) ← k.tracer.perform k.files op
  return { k with tracer := o.tracer, files := o.files }

/-- Records what is kept, without a draft. -/
def inline (k : Desk) : Work → Except Fault Desk
  | .change op => k.change op
  | .execute x =>
    if x.fate.isCommitted then do
      let done ← k.tracer.performAll k.files (x.start :: x.script)
      return ⟨done.tracer, done.files, k.calls ++ [done.calls]⟩
    else return k

/-- Records every transaction in the draft, which is then flushed or abandoned. -/
def speculate (k : Desk × Draft) : Work → Except Fault (Desk × Draft)
  | .change op => do return (← k.1.change op, k.2)
  | .execute x => do
    let (d, _) ← k.1.tracer.recorder.startSpeculative k.2 x.tx x.index x.baseFee
    let (d, calls) ← d.performAll x.script
    if x.fate.isCommitted then
      let (o, d) ← k.1.tracer.flushTransaction k.1.files d
      return (⟨o.tracer, o.files, k.1.calls ++ [calls]⟩, d)
    else return (k.1, d.abandon.1)

def inlineAll (k : Desk) (work : List Work) : Except Fault Desk := work.foldlM inline k

def speculateAll (k : Desk × Draft) (work : List Work) : Except Fault (Desk × Draft) :=
  work.foldlM speculate k

/-- In a block with no call open, and with a tracer that loses nothing. -/
structure Ready (k : Desk) : Prop where
  acceptsAll : k.tracer.AcceptsAll
  enabled : k.tracer.recorder.enabled = true
  inBlock : k.tracer.recorder.inBlock = true
  noCall : k.tracer.recorder.calls.calls = []

/-- Alike in all but the count of the calls that were opened outside all transactions. -/
structure Alike (k l : Desk) : Prop where
  content : l.tracer.content = k.tracer.content
  files : l.files = k.files
  calls : l.calls = k.calls
  recorder : l.tracer.recorder = { k.tracer.recorder with calls := l.tracer.recorder.calls }

end Desk

/-- Between two transactions a draft is as good as new. -/
structure Draft.Fresh (d : Draft) (progress : Bool) : Prop where
  recorder : d.recorder = .fresh true progress
  trace : d.trace = []

theorem Draft.fresh_onBuffer (b : Buffer) (progress : Bool) :
    (onBuffer b true progress).Fresh progress := ⟨rfl, rfl⟩

def Recorder.enterTransaction (r : Recorder) : Recorder :=
  { r with inTransaction := true, calls := .empty }

namespace Execution

variable {x : Execution} {r : Recorder}

def opening (x : Execution) (r : Recorder) : Step :=
  .noted r.enterTransaction (.transactionStarted x.index x.tx.hash)
    (.transactionStart (.ofTransaction x.tx x.index x.baseFee))

theorem perform_start (x : Execution) (henabled : r.enabled = true) (hblock : r.block ≠ none)
    (houtside : r.inTransaction = false) (hcalls : r.calls.calls = []) :
    r.perform x.start = .ok (x.opening r) := by
  rw [Recorder.perform_enabled henabled]
  exact Recorder.startTransaction_eq_ok.mpr ⟨hblock, houtside, hcalls, rfl⟩

theorem transactional_script (h : x.Accepted) {op : Operation} (hop : op ∈ x.script) :
    op.isTransactional = true := by
  rcases List.mem_append.mp hop with hbody | hclosing
  · exact h.transactional op hbody
  · cases hfate : x.fate with
    | abandoned => simp [hfate, Fate.closing] at hclosing
    | _ =>
      simp only [hfate, Fate.closing, List.mem_singleton] at hclosing
      subst hclosing
      rfl

theorem run_script (h : x.Accepted) (henabled : r.enabled = true) :
    ∃ s, r.enterTransaction.run x.script = .ok s ∧ r.enterTransaction.StaysInBlock s := by
  obtain ⟨q, s, hs, hq, htransaction, hcalls⟩ := h.taken
  have hagrees : q.Agrees r.enterTransaction :=
    ⟨henabled.trans hq.symm, htransaction.symm, hcalls.symm⟩
  obtain ⟨t, ht, hsame⟩ :=
    Recorder.run_transactional (fun _ => transactional_script h) hq hagrees hs
  exact ⟨t, ht, hsame.right⟩

theorem run_closing {s : Step} (hfate : x.fate.isCommitted = true) (henabled : r.enabled = true)
    (hrun : r.run x.fate.closing = .ok s) : s.recorder = r.leaveTransaction := by
  cases hx : x.fate with
  | ended receipt =>
    rw [hx] at hrun
    obtain ⟨t, ht, rfl⟩ := Recorder.run_singleton.mp hrun
    rw [Recorder.perform_enabled henabled] at ht
    obtain ⟨-, -, rfl⟩ := Recorder.endTransaction_eq_ok.mp ht
    rfl
  | failed reason =>
    rw [hx] at hrun
    obtain ⟨t, ht, rfl⟩ := Recorder.run_singleton.mp hrun
    rw [Recorder.perform_enabled henabled] at ht
    obtain ⟨-, rfl⟩ := Recorder.failTransaction_eq_ok.mp ht
    rfl
  | abandoned => simp [hx, Fate.isCommitted] at hfate

/-- A transaction that is kept leaves nothing open. -/
theorem recorder_of_committed {s : Step} (h : x.Accepted) (hfate : x.fate.isCommitted = true)
    (henabled : r.enabled = true) (hrun : r.enterTransaction.run x.script = .ok s) :
    s.recorder =
      { r with nextLog := s.recorder.nextLog, inTransaction := false, calls := .empty } := by
  obtain ⟨body, closing, hbody, hclosing, rfl⟩ := Recorder.run_append.mp hrun
  have hinside : r.enterTransaction.enabled = true := henabled
  obtain ⟨_, hbody', hsame⟩ :=
    Recorder.run_transactional h.transactional hinside (.refl r.enterTransaction) hbody
  obtain ⟨n, i, c, hstays⟩ := hsame.left
  have henabled' : body.recorder.enabled = true := hsame.left.enabled.trans henabled
  rw [Step.recorder_followedBy, run_closing hfate henabled' hclosing, hstays]
  rfl

/-- The same transaction in two recorders that number their logs alike. -/
theorem run_committed {q : Recorder} (h : x.Accepted) (hfate : x.fate.isCommitted = true)
    (hr : r.enabled = true) (hq : q.enabled = true) (hlog : q.nextLog = r.nextLog) :
    ∃ s t n, r.enterTransaction.run x.script = .ok s ∧ q.enterTransaction.run x.script = .ok t ∧
      t.trace = s.trace ∧ t.calls = s.calls ∧
      s.recorder = { r with nextLog := n, inTransaction := false, calls := .empty } ∧
      t.recorder = { q with nextLog := n, inTransaction := false, calls := .empty } := by
  obtain ⟨s, hs, -⟩ := run_script h hr
  have hinside : r.enterTransaction.enabled = true := hr
  have hagrees : r.enterTransaction.Agrees q.enterTransaction := ⟨hq.trans hr.symm, rfl, rfl⟩
  obtain ⟨t, ht, hsame⟩ :=
    Recorder.run_transactional (fun _ => transactional_script h) hinside hagrees hs
  obtain ⟨htrace, hnext⟩ := hsame.same hlog
  refine ⟨s, t, s.recorder.nextLog, hs, ht, htrace, hsame.calls,
    recorder_of_committed h hfate hr hs, ?_⟩
  rw [← hnext]
  exact recorder_of_committed h hfate hq ht

end Execution

namespace Recorder

/-- The recorder of a draft that has been lent another recorder's block. -/
def lend (r q : Recorder) : Recorder :=
  { q with block := some ⟨r.blockNumber⟩, nextLog := r.nextLog }

theorem startSpeculative_eq {r : Recorder} {d : Draft}
    (hblock : r.enabled = true → r.inBlock = true) (henabled : d.recorder.enabled = true)
    (houtside : d.recorder.block = none) (htransaction : d.recorder.inTransaction = false)
    (hcalls : d.recorder.calls.calls = []) (x : Execution) :
    r.startSpeculative d x.tx x.index x.baseFee =
      .ok ({ d with recorder := r.lend d.recorder }.absorb (x.opening (r.lend d.recorder)),
        (x.opening (r.lend d.recorder)).notes) := by
  have henter : d.enterBlock r = .ok { d with recorder := r.lend d.recorder } := by
    simp [Draft.enterBlock, require, inBlock, houtside, lend, bind, Except.bind, pure, Except.pure]
  have hlent : (r.lend d.recorder).enabled = true := henabled
  have hperform := x.perform_start hlent (by simp [lend]) htransaction hcalls
  rw [Execution.start] at hperform
  unfold startSpeculative
  rw [if_pos henabled, henter]
  cases hon : r.enabled with
  | true =>
    have hin : r.requireInBlock = .ok () := require_eq_ok.mpr (hblock hon)
    simp [hin, hperform, bind, Except.bind, pure, Except.pure]
  | false => simp [hperform, bind, Except.bind, pure, Except.pure]

/-- Hands on what a draft holds, and with it the number of the next log. -/
def handOver (r : Recorder) (d : Draft) : Step :=
  ⟨{ r with nextLog := d.recorder.nextLog },
    [.note (.transactionFlushed d.buffer.length), .forward d.trace], []⟩

theorem trace_handOver (r : Recorder) (d : Draft) : (r.handOver d).trace = d.trace := by
  simp [handOver, Step.trace, Output.trace]

theorem flushTransaction_eq {r : Recorder} {d : Draft} (henabled : r.enabled = true)
    (hblock : r.inBlock = true) (hended : d.recorder.inTransaction = false)
    (hlent : d.recorder.block = some ⟨r.blockNumber⟩) :
    r.flushTransaction d =
      .ok (r.handOver d, { d with recorder := d.recorder.leaveBlock, trace := [] }) := by
  have hin : r.requireInBlock = .ok () := require_eq_ok.mpr hblock
  have hnumber : d.recorder.blockNumber = r.blockNumber := by simp [blockNumber, hlent]
  have hinside : d.recorder.inBlock = true := by simp [inBlock, hlent]
  simp [flushTransaction, handOver, henabled, hin, hended, hnumber, hinside, require, bind,
    Except.bind, pure, Except.pure]

end Recorder

namespace Draft

variable {d : Draft} {progress : Bool} {r : Recorder}

theorem fresh_abandon {s : Step} (hd : d.recorder = s.recorder)
    (hlent : (r.lend (.fresh true progress)).enterTransaction.StaysInBlock s) :
    d.abandon.1.Fresh progress := by
  -- whatever the script left open, abandoning forgets the transaction, its calls and the block
  obtain ⟨n, i, c, hs⟩ := hlent
  refine ⟨?_, rfl⟩
  simp only [abandon, hd, hs]
  rfl

end Draft

/-! ## The two ways side by side -/

namespace Desk

/-- What holds of the two ways between any two pieces of work. -/
structure Abreast (progress : Bool) (k : Desk × Draft) (l : Desk) : Prop where
  speculative : k.1.Ready
  inline : l.Ready
  alike : k.1.Alike l
  draft : k.2.Fresh progress

variable {k : Desk × Draft} {l : Desk} {progress : Bool}

/-- Both ways do a piece of work and are abreast again. -/
def Proceed (progress : Bool) (k : Desk × Draft) (l : Desk) (work : Work) : Prop :=
  ∃ k' l', speculate k work = .ok k' ∧ l.inline work = .ok l' ∧ Abreast progress k' l' ∧
    k'.1.tracer.recorder.inTransaction = k.1.tracer.recorder.inTransaction

theorem Ready.grow {k : Desk} {t : Tracer} {s : Step} {n : Nat} {i : Bool} {c : CallStack}
    (h : k.Ready) (hgrows : k.tracer.Grows t s) (hc : c.calls = [])
    (hs : s.recorder = { k.tracer.recorder with nextLog := n, inTransaction := i, calls := c })
    (calls : List (List Nat)) : Ready ⟨t, k.files, calls⟩ where
  acceptsAll := hgrows.acceptsAll
  enabled := by rw [hgrows.recorder, hs]; exact h.enabled
  inBlock := by rw [hgrows.recorder, hs]; exact h.inBlock
  noCall := by rw [hgrows.recorder, hs]; exact hc

theorem Alike.grow {k l : Desk} {t t' : Tracer} {s s' : Step} (h : k.Alike l)
    (hgrows : k.tracer.Grows t s) (hgrows' : l.tracer.Grows t' s') (htrace : s'.trace = s.trace)
    (hrecorder : s'.recorder = { s.recorder with calls := s'.recorder.calls })
    {calls : List (List Nat)} : Alike ⟨t, k.files, calls⟩ ⟨t', l.files, calls⟩ where
  content := by rw [hgrows'.content, hgrows.content, h.content, htrace]
  files := h.files
  calls := rfl
  recorder := by rw [hgrows'.recorder, hgrows.recorder]; exact hrecorder

theorem change_of_record {k : Desk} (h : k.Ready) {op : Operation} {s : Step}
    (hs : k.tracer.recorder.record op = .ok s) :
    ∃ t, k.change op = .ok ⟨t, k.files, k.calls⟩ ∧ k.tracer.Grows t s := by
  obtain ⟨hgrows, hfiles⟩ := Tracer.take_grows h.acceptsAll k.files s
  have hperform : k.tracer.perform k.files op = .ok (k.tracer.take k.files s, s.calls) := by
    rw [← Recorder.perform_enabled h.enabled] at hs
    exact bind_eq_ok.mpr ⟨s, hs, rfl⟩
  refine ⟨_, bind_eq_ok.mpr ⟨_, hperform, ?_⟩, hgrows⟩
  simp only [hfiles, pure, Except.pure]

theorem change_abreast (h : Abreast progress k l) {op : Operation}
    (hop : (Work.change op).Accepted) : Proceed progress k l (.change op) := by
  obtain ⟨hchange, q, u, hu⟩ := hop
  obtain ⟨s, hs, -⟩ := Recorder.record_change hchange hu k.1.tracer.recorder
  obtain ⟨s', hs', hsame⟩ := Recorder.record_change hchange hs l.tracer.recorder
  obtain ⟨t, ht, hgrows⟩ := change_of_record h.speculative hs
  obtain ⟨t', ht', hgrows'⟩ := change_of_record h.inline hs'
  have hcall : l.tracer.recorder.activeCall = k.1.tracer.recorder.activeCall := by
    simp [Recorder.activeCall, CallStack.active, h.speculative.noCall, h.inline.noCall]
  have hlog : l.tracer.recorder.nextLog = k.1.tracer.recorder.nextLog := by
    rw [h.alike.recorder]
  obtain ⟨htrace, hnext⟩ := hsame.same hcall hlog
  refine ⟨(⟨t, k.1.files, k.1.calls⟩, k.2), ⟨t', l.files, l.calls⟩,
    bind_eq_ok.mpr ⟨_, ht, rfl⟩, ht', ⟨?_, ?_, ?_, h.draft⟩, ?_⟩
  · exact h.speculative.grow hgrows h.speculative.noCall hsame.left k.1.calls
  · exact h.inline.grow hgrows' h.inline.noCall hsame.right l.calls
  · rw [h.alike.calls]
    refine h.alike.grow hgrows hgrows' htrace ?_
    rw [hsame.right, hsame.left, hnext, h.alike.recorder]
  · rw [hgrows.recorder, hsame.left]

/-- What a script is tried on. -/
def trialRecorder (k : Desk) (progress : Bool) : Recorder :=
  (k.tracer.recorder.lend (.fresh true progress)).enterTransaction

/-- A draft that has been lent the block takes the whole transaction. -/
theorem trial_of_run {k : Desk} {d : Draft} (hk : k.Ready) (hd : d.Fresh progress)
    {x : Execution} {s : Step} (hs : (k.trialRecorder progress).run x.script = .ok s) :
    ∃ d₁ notes d₂,
      k.tracer.recorder.startSpeculative d x.tx x.index x.baseFee = .ok (d₁, notes) ∧
      d₁.performAll x.script = .ok (d₂, s.calls) ∧ d₂.recorder = s.recorder ∧
      d₂.trace = (x.opening (k.trialRecorder progress)).trace ++ s.trace := by
  obtain ⟨recorder, trace, capacity⟩ := d
  obtain ⟨rfl, rfl⟩ : recorder = .fresh true progress ∧ trace = [] := ⟨hd.recorder, hd.trace⟩
  let lent := k.tracer.recorder.lend (.fresh true progress)
  have hstart := Recorder.startSpeculative_eq (d := ⟨.fresh true progress, [], capacity⟩)
    (fun _ => hk.inBlock) rfl rfl rfl rfl x
  obtain ⟨d₂, hd₂, hrecorder, htrace⟩ :=
    Draft.performAll_of_run (d := .absorb ⟨lent, [], capacity⟩ (x.opening lent)) hs
  exact ⟨_, _, d₂, hstart, hd₂, hrecorder, htrace⟩

/-- The tracer of a desk takes a transaction that is kept as a whole. -/
theorem inline_of_run {k : Desk} (hk : k.Ready) {x : Execution} {s : Step}
    (houtside : k.tracer.recorder.inTransaction = false) (hfate : x.fate.isCommitted = true)
    (hs : k.tracer.recorder.enterTransaction.run x.script = .ok s) :
    ∃ t, k.inline (.execute x) = .ok ⟨t, k.files, k.calls ++ [s.calls]⟩ ∧
      k.tracer.Grows t ((x.opening k.tracer.recorder).followedBy s) := by
  have hblock : k.tracer.recorder.block ≠ none := Recorder.inBlock_iff.mp hk.inBlock
  have hstart := x.perform_start hk.enabled hblock houtside hk.noCall
  obtain ⟨t, ht, hgrows⟩ := Tracer.performAll_of_run hk.acceptsAll k.files
    (Recorder.run_cons.mpr ⟨_, s, hstart, hs, rfl⟩)
  refine ⟨t, ?_, hgrows⟩
  rw [inline, if_pos hfate]
  exact bind_eq_ok.mpr ⟨_, ht, rfl⟩

theorem flush_of_recorder {k : Desk} (hk : k.Ready) {d d' : Draft} {s : Step}
    (hs : k.tracer.recorder.flushTransaction d = .ok (s, d')) :
    ∃ o, k.tracer.flushTransaction k.files d = .ok (o, d') ∧ k.tracer.Grows o.tracer s ∧
      o.files = k.files := by
  obtain ⟨hgrows, hfiles⟩ := Tracer.take_grows hk.acceptsAll k.files s
  exact ⟨_, bind_eq_ok.mpr ⟨_, hs, rfl⟩, hgrows, hfiles⟩

theorem commit_abreast (h : Abreast progress k l) {x : Execution} (hx : x.Accepted)
    (hfate : x.fate.isCommitted = true) (houtside : k.1.tracer.recorder.inTransaction = false) :
    Proceed progress k l (.execute x) := by
  have houtside' : l.tracer.recorder.inTransaction = false := by rw [h.alike.recorder, houtside]
  have hlog : (k.1.tracer.recorder.lend (.fresh true progress)).nextLog =
      l.tracer.recorder.nextLog := by rw [h.alike.recorder]; rfl
  -- both recorders start the script with the same calls and the same number for the next log
  obtain ⟨s, s', n, hs, hs', htrace, hcalls, hrecorder, hrecorder'⟩ :=
    Execution.run_committed hx hfate h.inline.enabled rfl hlog
  obtain ⟨t, ht, hgrows⟩ := inline_of_run h.inline houtside' hfate hs
  obtain ⟨d₁, notes, d₂, hstart, hbody, hd₂, hd₂trace⟩ := trial_of_run h.speculative h.draft hs'
  rw [hrecorder'] at hd₂
  -- the script has ended, so the flush is let through, and it hands the log numbering back
  have hflush := Recorder.flushTransaction_eq (d := d₂) h.speculative.enabled
    h.speculative.inBlock (by rw [hd₂]) (by rw [hd₂]; rfl)
  have hkept : (k.1.tracer.recorder.handOver d₂).recorder =
      { k.1.tracer.recorder with nextLog := n } := by rw [Recorder.handOver, hd₂]
  obtain ⟨⟨t', _, notes'⟩, ht', hgrows', rfl⟩ := flush_of_recorder h.speculative hflush
  refine ⟨(⟨t', k.1.files, k.1.calls ++ [s'.calls]⟩, ⟨d₂.recorder.leaveBlock, [], d₂.capacity⟩),
    ⟨t, l.files, l.calls ++ [s.calls]⟩, ?_, ht, ⟨?_, ?_, ?_, ?_⟩, ?_⟩
  · refine bind_eq_ok.mpr ⟨_, hstart, bind_eq_ok.mpr ⟨_, hbody, ?_⟩⟩
    simp only [hfate]
    exact bind_eq_ok.mpr ⟨_, ht', rfl⟩
  · exact h.speculative.grow hgrows' h.speculative.noCall hkept _
  · exact h.inline.grow hgrows rfl hrecorder _
  · rw [h.alike.calls, hcalls]
    refine h.alike.grow hgrows' hgrows ?_ ?_
    · rw [Recorder.trace_handOver, hd₂trace, Step.trace_followedBy, htrace]
      rfl
    · rw [hkept, Step.recorder_followedBy, hrecorder, h.alike.recorder]
      simp [houtside]
  · exact ⟨by rw [hd₂]; rfl, rfl⟩
  · rw [hgrows'.recorder, hkept]

theorem abandon_abreast (h : Abreast progress k l) {x : Execution} (hx : x.Accepted)
    (hfate : x.fate.isCommitted = false) : Proceed progress k l (.execute x) := by
  obtain ⟨s, hs, hstays⟩ := Execution.run_script hx
    (r := k.1.tracer.recorder.lend (.fresh true progress)) rfl
  obtain ⟨d₁, notes, d₂, hstart, hbody, hd₂, -⟩ := trial_of_run h.speculative h.draft hs
  refine ⟨(k.1, d₂.abandon.1), l, ?_, ?_,
    ⟨h.speculative, h.inline, h.alike, Draft.fresh_abandon hd₂ hstays⟩, rfl⟩
  · refine bind_eq_ok.mpr ⟨_, hstart, bind_eq_ok.mpr ⟨_, hbody, ?_⟩⟩
    simp [hfate, pure, Except.pure]
  · simp [inline, hfate, pure, Except.pure]

theorem work_abreast (h : Abreast progress k l) {work : Work} (hwork : work.Accepted)
    (houtside : k.1.tracer.recorder.inTransaction = true → work.commits = false) :
    Proceed progress k l work := by
  cases work with
  | change op => exact change_abreast h hwork
  | execute x =>
    by_cases hfate : x.fate.isCommitted = true
    · exact commit_abreast h hwork hfate (by simpa [Work.commits, hfate] using houtside)
    · exact abandon_abreast h hwork (by simpa using hfate)

theorem run_abreast (h : Abreast progress k l) {work : List Work}
    (hwork : ∀ w ∈ work, w.Accepted)
    (houtside : k.1.tracer.recorder.inTransaction = true → ∀ w ∈ work, w.commits = false) :
    ∃ k' l', speculateAll k work = .ok k' ∧ l.inlineAll work = .ok l' ∧
      Abreast progress k' l' := by
  induction work generalizing k l with
  | nil => exact ⟨k, l, rfl, rfl, h⟩
  | cons w rest ih =>
    obtain ⟨k₁, l₁, hk₁, hl₁, h₁, htransaction⟩ :=
      work_abreast h (hwork w (by simp)) fun hinside => houtside hinside w (by simp)
    obtain ⟨k', l', hk', hl', h'⟩ := ih h₁ (fun w hw => hwork w (by simp [hw])) fun hinside w hw =>
      houtside (htransaction ▸ hinside) w (by simp [hw])
    exact ⟨k', l', bind_eq_ok.mpr ⟨k₁, hk₁, hk'⟩, bind_eq_ok.mpr ⟨l₁, hl₁, hl'⟩, h'⟩

/-- Trying out transactions in a draft gives the bytes, the numbers of calls and the recorder that
recording just the kept ones gives. A tracer that is itself in a transaction can keep none. -/
theorem speculation_refines_inline (t : Tracer) (files : Files) (b : Buffer) (progress : Bool)
    (work : List Work) (hready : Ready ⟨t, files, []⟩) (hwork : ∀ w ∈ work, w.Accepted)
    (houtside : t.recorder.inTransaction = true → ∀ w ∈ work, w.commits = false) :
    ∃ k d l, speculateAll (⟨t, files, []⟩, .onBuffer b true progress) work = .ok (k, d) ∧
      inlineAll ⟨t, files, []⟩ work = .ok l ∧ k.Alike l ∧ k.Ready ∧ l.Ready ∧
      d.Fresh progress := by
  have hstart : Abreast progress (⟨t, files, []⟩, .onBuffer b true progress) ⟨t, files, []⟩ :=
    ⟨hready, hready, ⟨rfl, rfl, rfl, rfl⟩, Draft.fresh_onBuffer b progress⟩
  obtain ⟨⟨k, d⟩, l, hk, hl, h⟩ := run_abreast hstart hwork houtside
  exact ⟨k, d, l, hk, hl, h.alike, h.speculative, h.inline, h.draft⟩

/-- In block 7, with a sink that takes everything. -/
def sampleTracer (inTransaction : Bool) : Tracer :=
  .direct ⟨true, false, some ⟨some 7⟩, 0, inTransaction, .empty⟩ ⟨.accepting, ""⟩

def sampleExecution (body : List Operation) (fate : Fate) : Execution :=
  ⟨.legacy (.replicate 32 0) none 0 21000 1 0 [], 0, none, body, fate⟩

theorem accepted_sample {body : List Operation} {fate : Fate} {s : Step}
    (hbody : ∀ op ∈ body, op.isTransactional = true)
    (hrun : (Recorder.fresh true false).enterTransaction.run (body ++ fate.closing) = .ok s) :
    (sampleExecution body fate).Accepted :=
  ⟨hbody, _, s, hrun, rfl, rfl, rfl⟩

/-- A transaction that is abandoned in the middle of two calls, a log outside all transactions,
and a transaction that fails in the middle of a call behind another log. -/
def mixedWork : List Work :=
  let log := Operation.log ⟨.replicate 20 0, [], [1]⟩
  [.execute (sampleExecution [.startCall .call, .startCall .create, log] .abandoned),
   .change log,
   .execute (sampleExecution [log, .startCall .call] (.failed "bad nonce"))]

theorem ready_sampleTracer (inTransaction : Bool) (files : Files) :
    Ready ⟨sampleTracer inTransaction, files, []⟩ :=
  ⟨Sink.acceptsAll_accepting, rfl, rfl, rfl⟩

theorem accepted_mixedWork : ∀ w ∈ mixedWork, w.Accepted := by
  simp only [mixedWork, List.forall_mem_cons, List.not_mem_nil, false_imp_iff, implies_true,
    and_true]
  exact ⟨accepted_sample (by decide) rfl, ⟨rfl, .fresh true false, _, rfl⟩,
    accepted_sample (by decide) rfl⟩

theorem speculation_refines_inline_mixed :
    Ready ⟨sampleTracer false, ⟨[]⟩, []⟩ ∧ (∀ w ∈ mixedWork, w.Accepted) ∧
      ∃ k d l, speculateAll (⟨sampleTracer false, ⟨[]⟩, []⟩, .onBuffer ⟨[], 0⟩ true false) mixedWork
          = .ok (k, d) ∧
        inlineAll ⟨sampleTracer false, ⟨[]⟩, []⟩ mixedWork = .ok l ∧ k.Alike l ∧ k.Ready ∧
        l.Ready ∧ d.Fresh false :=
  ⟨ready_sampleTracer .., accepted_mixedWork,
    speculation_refines_inline _ _ _ _ _ (ready_sampleTracer ..) accepted_mixedWork
      (fun h => by cases h)⟩

/-- A tracer that is in a transaction of its own takes a transaction from a draft, but does not
start it itself. -/
theorem inline_stops_inside_transaction :
    let work := [Work.execute (sampleExecution [] (.failed ""))]
    Ready ⟨sampleTracer true, ⟨[]⟩, []⟩ ∧ (∀ w ∈ work, w.Accepted) ∧
      (∃ k, speculateAll (⟨sampleTracer true, ⟨[]⟩, []⟩, .onBuffer ⟨[], 0⟩ true false) work =
        .ok k) ∧
      ¬ ∃ l, inlineAll ⟨sampleTracer true, ⟨[]⟩, []⟩ work = .ok l := by
  refine ⟨ready_sampleTracer .., ?_, ⟨_, rfl⟩, ?_⟩
  · simp only [List.mem_singleton, forall_eq]
    exact accepted_sample (by decide) rfl
  · rintro ⟨l, hl⟩
    cases hl

end Desk

end EvmTrace
