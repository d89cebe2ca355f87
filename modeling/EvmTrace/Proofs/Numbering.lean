import EvmTrace.Proofs.Ensemble

/-!
# Numbers of logs

Logs are numbered from 0 on in each block. A draft that is lent the block goes on with the numbering
where the canonical tracer is; a flush hands it back, and abandoning the draft drops it. As long as
only one of them records at a time, the logs of a block have the numbers 0, 1, 2 and so on in the
canonical trace, whatever became of the transactions.
-/
namespace EvmTrace

/-- Starts, ends or cancels a block. -/
def Event.isBoundary : Event → Bool
  | .blockStart _ | .blockEnd .. | .blockCancel .. => true
  | _ => false

def Event.logIndex? : Event → Option Nat
  | .log _ index _ => some index
  | _ => none

/-- The number that the next log of the open block must have. -/
abbrev Numbering := Option Nat

namespace Numbering

def accepts (n : Numbering) : Event → Bool
  | .log _ index _ => n.all (index == ·)
  | _ => true

def after (n : Numbering) : Event → Numbering
  | .blockStart _ => some 0
  | .blockEnd .. | .blockCancel .. => none
  | .log .. => n.map (· + 1)
  | _ => n

/-- Where the numbering is beside a recorder; one to which a block is lent goes on with it. -/
def beside (r : Recorder) (lent : Bool) : Numbering :=
  if lent || r.inBlock then some r.nextLog else none

@[simps] def reader : Reader Numbering := ⟨accepts, after, beside⟩

variable {m : Numbering} {t : Trace}

/-- Between two boundaries the logs are numbered without gap or repetition. -/
theorem logs_of_readAll {next : Nat} (h : reader.readAll (some next) t = some m)
    (ht : ∀ e ∈ t, e.isBoundary = false) :
    ∃ count, t.filterMap Event.logIndex? = List.range' next count := by
  induction t generalizing next with
  | nil => exact ⟨0, rfl⟩
  | cons e t ih =>
    obtain ⟨haccepts, hrest⟩ := Reader.readAll_cons_eq_some.mp h
    obtain ⟨he, hlater⟩ := List.forall_mem_cons.mp ht
    cases e with
    | log call index l =>
      obtain rfl : index = next := by simpa [accepts] using haccepts
      obtain ⟨count, hcount⟩ := ih hrest hlater
      refine ⟨count + 1, ?_⟩
      rw [List.range'_succ, ← hcount]
      rfl
    | blockStart number => cases he
    | blockEnd block totalDifficulty => cases he
    | blockCancel number reason => cases he
    | _ => exact ih hrest hlater

end Numbering

def Consumer.numbering (c : Consumer) : Numbering := if c.block.isSome then some c.nextLog else none

def Recorder.numbering (r : Recorder) : Numbering := .beside r false

theorem Recorder.numbering_of_block {r : Recorder} (h : r.block ≠ none) :
    r.numbering = some r.nextLog := if_pos (inBlock_iff.mpr h)

theorem Consumer.shows_numbering : Consumer.Shows Numbering.reader Consumer.numbering where
  reads c e haccepts := by
    cases e with
    | log call index l =>
      obtain ⟨-, rfl⟩ : call = c.calls.active ∧ index = c.nextLog := by
        simpa [accepts] using haccepts
      cases hblock : c.block <;>
        simp [Numbering.accepts, Numbering.after, numbering, after, hblock]
    | _ => exact ⟨rfl, rfl⟩
  skips a number := ⟨rfl, rfl⟩
  same c r lent h := by
    rw [numbering, h.inBlock, h.nextLog]
    rfl

theorem Recorder.numbering_perform {r : Recorder} {op : Operation} {s : Step}
    (h : r.perform op = .ok s) :
    Numbering.reader.readAll r.numbering s.trace = some s.recorder.numbering :=
  Consumer.shows_numbering.perform (fun hlent => by cases hlent) h

/-- The numbering that a draft hands back, where a draft that is off hands back what it was lent. -/
def Draft.nextLog (d : Draft) (lent : Nat) : Nat :=
  if d.recorder.inBlock then d.recorder.nextLog else lent

theorem Recorder.nextLog_receive (r : Recorder) (d : Draft) :
    (r.receive d).recorder.nextLog = d.nextLog r.nextLog := by
  unfold receive Draft.nextLog
  cases d.recorder.inBlock <;> rfl

theorem Recorder.numbering_receive {r : Recorder} (h : r.block ≠ none) (d : Draft) :
    (r.receive d).recorder.numbering = some (d.nextLog r.nextLog) := by
  rw [numbering_of_block, nextLog_receive]
  rwa [receive_eq]

namespace Ensemble

variable {ι : Type} [DecidableEq ι]

/-- Acts that are in order when the block is lent to some draft or to none, and to whom it is lent
then. The canonical tracer and the drafts record in turns, and a draft keeps to transactions. -/
inductive Orderly : Option ι → Act ι → Option ι → Prop
  | perform (op : Operation) : Orderly none (.perform none op) none
  | start (k : ι) (other : none ≠ some k) (tx : Transaction) (index : UInt64)
      (baseFee : Option Word) : Orderly none (.start none k other tx index baseFee) (some k)
  | record (k : ι) (op : Operation) (hop : op.isBoundary = false) :
    Orderly (some k) (.perform (some k) op) (some k)
  | flush (lent : Option ι) (k : ι) (other : none ≠ some k) (hlent : lent = none ∨ lent = some k) :
    Orderly lent (.flushTransaction none k other) none
  | abandon (k : ι) : Orderly (some k) (.abandon k) none
  | abandonIdle (lent : Option ι) (k : ι) (hlent : lent ≠ some k) : Orderly lent (.abandon k) lent

inductive OrderlyRun : Option ι → List (Act ι) → Prop
  | nil (lent : Option ι) : OrderlyRun lent []
  | cons {lent lent' : Option ι} {a : Act ι} {acts : List (Act ι)} (act : Orderly lent a lent')
      (rest : OrderlyRun lent' acts) : OrderlyRun lent (a :: acts)

/-- The lines of a draft go on with the numbering that the draft was lent by the recorder. -/
structure Continues (r : Recorder) (d : Draft) : Prop where
  lender : r.block ≠ none
  inBlock : d.recorder.enabled = true → d.recorder.block ≠ none
  logs : Numbering.reader.readAll (some r.nextLog) d.trace = some (some (d.nextLog r.nextLog))

structure Numbered (lent : Option ι) (e : Ensemble ι) (t : Trace) : Prop where
  enabled : e.canonical.recorder.enabled = true
  canonical : Numbering.reader.readAll none t = some e.canonical.recorder.numbering
  idle : ∀ k, lent ≠ some k → Vacant (e.drafts k)
  lent : ∀ k, lent = some k → Continues e.canonical.recorder (e.drafts k)

variable {e e' : Ensemble ι} {t : Trace} {k : ι} {s : Step} {entry : Entry ι} {a : Act ι}
  {lent lent' : Option ι}

theorem Vacant.logs {d : Draft} (hd : Vacant d) (next : Nat) :
    Numbering.reader.readAll (some next) d.trace = some (some (d.nextLog next)) := by
  rw [hd.trace, Draft.nextLog, Recorder.inBlock, hd.block]
  rfl

theorem Vacant.continues {r : Recorder} {d : Draft} (hd : Vacant d) (hr : r.block ≠ none)
    (hdisabled : d.recorder.enabled = false) : Continues r d where
  lender := hr
  inBlock henabled := by cases henabled.symm.trans hdisabled
  logs := hd.logs _

theorem Continues.lend {r : Recorder} {d : Draft} (hr : r.block ≠ none) (hd : Vacant d)
    (start : TransactionStart) (note : Diagnostic) :
    Continues r (d.absorb (.noted (r.lend d.recorder).enterTransaction note
      (.transactionStart start))) where
  lender := hr
  inBlock _ := Option.some_ne_none _
  logs := by
    rw [Draft.trace_absorb, hd.trace]
    rfl

theorem Continues.absorb {r : Recorder} {d : Draft} {op : Operation} (h : Continues r d)
    (hop : op.isBoundary = false) (hs : d.recorder.perform op = .ok s) :
    Continues r (d.absorb s) where
  lender := h.lender
  inBlock henabled := by
    rw [Draft.absorb, Recorder.enabled_perform hs] at henabled
    rw [Draft.absorb, Recorder.block_perform hop hs]
    exact h.inBlock henabled
  logs := by
    rw [Draft.trace_absorb, Reader.readAll_append, h.logs, Option.bind_some]
    cases henabled : d.recorder.enabled with
    | false =>
      rw [Recorder.perform_disabled _ op henabled] at hs
      obtain rfl := Except.ok.inj hs
      rw [Consumer.shows_numbering.ignore, Draft.nextLog, Draft.nextLog, Draft.absorb,
        Recorder.recorder_ignore]
    | true =>
      have hbefore : d.recorder.block ≠ none := h.inBlock henabled
      have hafter : s.recorder.block ≠ none := by rwa [Recorder.block_perform hop hs]
      have hlogs := Recorder.numbering_perform hs
      rw [Recorder.numbering_of_block hbefore, Recorder.numbering_of_block hafter] at hlogs
      simpa [Draft.nextLog, Draft.absorb, Recorder.inBlock_iff.mpr hbefore,
        Recorder.inBlock_iff.mpr hafter] using hlogs

theorem Numbered.put {d : Draft} (h : Numbered lent e t)
    (hothers : ∀ k', k' ≠ k → (lent' = some k' ↔ lent = some k'))
    (hidle : lent' ≠ some k → Vacant d)
    (hlent : lent' = some k → Continues e.canonical.recorder d) :
    Numbered lent' (e.put k d) t where
  enabled := h.enabled
  canonical := h.canonical
  idle k' hk := by
    by_cases hsame : k' = k
    · subst hsame
      simpa [Ensemble.put] using hidle hk
    · simpa [Ensemble.put, hsame] using h.idle k' (mt (hothers k' hsame).mpr hk)
  lent k' hk := by
    by_cases hsame : k' = k
    · subst hsame
      simpa [Ensemble.put] using hlent hk
    · simpa [Ensemble.put, hsame] using h.lent k' ((hothers k' hsame).mp hk)

theorem Numbered.takes (h : Numbered none e t) (henabled : s.recorder.enabled = true)
    (hread : Numbering.reader.readAll e.canonical.recorder.numbering s.trace =
      some s.recorder.numbering) :
    Numbered none (e.take none s) (t ++ s.trace) := by
  have hcanonical : (e.take none s).canonical.recorder = s.recorder := Tracer.recorder_take ..
  refine ⟨?_, ?_, h.idle, by simp⟩
  · rwa [hcanonical]
  · rw [hcanonical]
    exact Reader.readAll_append_eq_some.mpr ⟨_, h.canonical, hread⟩

theorem numbered_act (h : Numbered lent e t) (horderly : Orderly lent a lent')
    (hact : e.act a = .ok (e', entry)) : Numbered lent' e' (t ++ entry.of none) := by
  cases horderly with
  | perform op =>
    obtain ⟨s, hs, rfl, rfl⟩ := act_perform_ok hact
    exact h.takes ((Recorder.enabled_perform hs).trans h.enabled) (Recorder.numbering_perform hs)
  | start k other tx index baseFee =>
    obtain ⟨hlender, s, rfl, rfl, hs⟩ := act_start_ok hact
    have hvacant : Vacant (e.drafts k) := h.idle k (canonical_ne k)
    have hcontinues : Continues e.canonical.recorder ((e.drafts k).absorb s) := by
      rcases hs with ⟨hdisabled, rfl⟩ | ⟨-, -, -, -, rfl⟩
      · have hsame : (e.drafts k).absorb (.idle (e.recorder (some k))) = e.drafts k :=
          Draft.absorb_idle _
        rw [hsame]
        exact hvacant.continues (hlender h.enabled) hdisabled
      · exact .lend (hlender h.enabled) hvacant ..
    simp only [Entry.of, reduceCtorEq, if_false, List.append_nil]
    exact h.put (fun k' hk => by simp [hk.symm]) (absurd rfl) fun _ => hcontinues
  | record k op hop =>
    obtain ⟨s, hs, rfl, rfl⟩ := act_perform_ok hact
    simp only [Entry.of, reduceCtorEq, if_false, List.append_nil]
    exact h.put (fun _ _ => .rfl) (absurd rfl) fun _ => (h.lent k rfl).absorb hop hs
  | flush _ k other hlent =>
    -- the draft either goes on with the numbering of the canonical tracer or has no lines at all
    have hlogs : Numbering.reader.readAll (some e.canonical.recorder.nextLog)
        (e.drafts k).trace =
        some (some ((e.drafts k).nextLog e.canonical.recorder.nextLog)) := by
      rcases hlent with rfl | rfl
      · exact (h.idle k (canonical_ne k)).logs _
      · exact (h.lent k rfl).logs
    have hothers : ∀ k', k' ≠ k → (none = some k' ↔ lent = some k') := by
      rcases hlent with rfl | rfl
      · exact fun _ _ => .rfl
      · exact fun k' hk => by simp [hk.symm]
    rcases act_flushTransaction_ok hact with ⟨hdisabled, -⟩ | ⟨-, hblock, -, -, rfl, rfl⟩
    · cases h.enabled.symm.trans hdisabled
    · have hreleased : Numbered none (e.put k (e.drafts k).released) t :=
        h.put hothers (fun _ => ⟨rfl, rfl⟩) (by simp)
      have hstart : (e.put k (e.drafts k).released).canonical.recorder.numbering =
          some e.canonical.recorder.nextLog := Recorder.numbering_of_block hblock
      rw [← Recorder.trace_receive (e.recorder none)]
      apply hreleased.takes
      · rw [Recorder.receive_eq]
        exact h.enabled
      · rw [hstart, Recorder.trace_receive, Recorder.numbering_receive hblock]
        exact hlogs
  | abandon k =>
    obtain ⟨rfl, rfl⟩ := Prod.mk.inj (Except.ok.inj hact)
    rw [Entry.of_nil, List.append_nil]
    exact h.put (fun k' hk => by simp [hk.symm]) (fun _ => ⟨rfl, rfl⟩) (by simp)
  | abandonIdle _ k hlent =>
    obtain ⟨rfl, rfl⟩ := Prod.mk.inj (Except.ok.inj hact)
    rw [Entry.of_nil, List.append_nil]
    exact h.put (fun _ _ => .rfl) (fun _ => ⟨rfl, rfl⟩) fun hk => absurd hk hlent

theorem numbered_run {acts : List (Act ι)} {j : Journal ι} (h : Numbered lent e t)
    (horderly : OrderlyRun lent acts) (hrun : e.run acts = .ok (e', j)) :
    ∃ lent', Numbered lent' e' (t ++ j.of none) := by
  induction horderly generalizing e t j with
  | nil lent =>
    obtain ⟨rfl, rfl⟩ := Prod.mk.inj (Except.ok.inj hrun)
    exact ⟨lent, by simpa using h⟩
  | cons act rest ih =>
    obtain ⟨e₁, entry, later, ha, hrest, rfl⟩ := run_cons.mp hrun
    rw [Journal.of_cons, ← List.append_assoc]
    exact ih (numbered_act h act ha) hrest

/-- When the canonical tracer and its drafts record in turns, the logs from the start of a block to
its end are numbered 0, 1, 2 and so on in the canonical trace, and so in what a sink holds that
accepts every write. -/
theorem logs_numbered_from_zero {acts : List (Act ι)} {j : Journal ι} (h : e.Untouched)
    (horderly : OrderlyRun none acts) (hrun : e.run acts = .ok (e', j)) :
    (e.canonical.AcceptsAll →
        e'.canonical.content = e.canonical.content ++ (j.of none).bytes) ∧
      ∀ before number block rest, j.of none = before ++ .blockStart number :: block ++ rest →
        (∀ x ∈ block, x.isBoundary = false) →
        ∃ count, block.filterMap Event.logIndex? = List.range count := by
  have hfresh : Numbered none e [] := by
    obtain ⟨progress, hcanonical⟩ := h.canonical
    refine ⟨congrArg Recorder.enabled hcanonical, by rw [hcanonical]; rfl, fun k _ => ?_, by simp⟩
    obtain ⟨enabled, progress, hdraft, htrace⟩ := h.drafts k
    exact ⟨htrace, congrArg Recorder.block hdraft⟩
  obtain ⟨lent, hnumbered⟩ := numbered_run hfresh horderly hrun
  refine ⟨fun haccepts => content_run haccepts hrun, fun before number block rest hj hblock => ?_⟩
  have hread : Numbering.reader.readAll none (before ++ .blockStart number :: (block ++ rest)) =
      some e'.canonical.recorder.numbering := by
    rw [← hnumbered.canonical, List.nil_append, hj]
    simp
  -- wherever the reader was before, the block starts at 0
  obtain ⟨b, -, -, hrest⟩ := Reader.readAll_append_cons.mp hread
  obtain ⟨c, hc, -⟩ := Reader.readAll_append_eq_some.mp hrest
  obtain ⟨count, hcount⟩ := Numbering.logs_of_readAll hc hblock
  exact ⟨count, hcount.trans List.range_eq_range'.symm⟩

def sampleLog : Operation := .log ⟨.replicate 20 0, [], [1]⟩

/-- Logs of the canonical tracer, of a transaction that is abandoned and of one that fails. -/
def mixedLogs : List (Act Bool) :=
  [.perform none (.startBlock (Consumer.plainBlock 7)), .perform none sampleLog,
   startSample false, .perform (some false) sampleLog, .abandon false, startSample true,
   .perform (some true) sampleLog, .perform (some true) (.failTransaction "bad nonce"),
   .flushTransaction none true (canonical_ne _), .perform none sampleLog,
   .perform none (.endBlock (Consumer.plainBlock 7) none)]

theorem logs_numbered_from_zero_mixed :
    sample.Untouched ∧ OrderlyRun none mixedLogs ∧
      ∃ e' j block rest, sample.run mixedLogs = .ok (e', j) ∧
        j.of none = [] ++ .blockStart 7 :: block ++ rest ∧ (∀ x ∈ block, x.isBoundary = false) ∧
        block.length = 5 ∧ ∃ count, block.filterMap Event.logIndex? = List.range count := by
  have horderly : OrderlyRun none mixedLogs :=
    .cons (.perform _) (.cons (.perform _) (.cons (.start ..) (.cons (.record _ _ rfl)
      (.cons (.abandon _) (.cons (.start ..) (.cons (.record _ _ rfl) (.cons (.record _ _ rfl)
        (.cons (.flush _ _ _ (.inr rfl)) (.cons (.perform _) (.cons (.perform _) (.nil _)))))))))))
  refine ⟨untouched_sample, horderly, _, _, [_, _, _, _, _], [_], rfl, rfl, ?_, rfl, ?_⟩
  · decide
  · apply (logs_numbered_from_zero untouched_sample horderly rfl).2 [] 7 _ [_] rfl
    decide

end Ensemble
end EvmTrace
