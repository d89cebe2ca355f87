import EvmTrace.Proofs.Reading

/-!
# Nesting of the canonical trace

Blocks, transactions and calls nest in a trace. A flush puts many lines into the trace of its
receiver at once. They nest there as long as every flush finds both sides between two units of
work, which a flush itself checks only in part.
-/
namespace EvmTrace

/-- Where a trace stands; its open calls are listed innermost first. -/
structure Nesting where
  inBlock : Bool
  inTransaction : Bool
  calls : List Nat
  deriving DecidableEq, Repr

namespace Nesting

def outside : Nesting := ⟨false, false, []⟩

def accepts (n : Nesting) : Event → Bool
  | .blockStart _ => !n.inBlock && n.calls.isEmpty
  | .blockEnd .. => n.inBlock && !n.inTransaction && n.calls.isEmpty
  | .blockCancel .. => n.inBlock
  | .transactionStart _ => n.inBlock && !n.inTransaction && n.calls.isEmpty
  | .sender _ => n.inTransaction
  | .transactionEnd _ => n.inTransaction && n.calls.isEmpty
  | .transactionFailure _ => n.inTransaction
  | .callParams _ call .. | .callWithoutCode call | .callFailure call .. | .callRevert call
  | .callEnd call .. => n.calls.head? == some call
  | _ => true

def after (n : Nesting) : Event → Nesting
  | .blockStart _ => { n with inBlock := true }
  | .blockEnd .. => { n with inBlock := false }
  | .blockCancel .. => outside
  | .transactionStart _ => { n with inTransaction := true, calls := [] }
  | .transactionEnd _ | .transactionFailure _ => { n with inTransaction := false, calls := [] }
  | .callStart _ call => { n with calls := call :: n.calls }
  | .callEnd .. => { n with calls := n.calls.tail }
  | _ => n

end Nesting

/-- Where a recorder stands; one to which a block is lent counts as being in a block. -/
def Recorder.nesting (r : Recorder) (lent : Bool) : Nesting :=
  ⟨lent || r.inBlock, r.inTransaction, r.calls.calls⟩

namespace Nesting

@[simps] def reader : Reader Nesting := ⟨accepts, after, Recorder.nesting⟩

abbrev readAll (n : Nesting) (t : Trace) : Option Nesting := reader.readAll n t

variable {n m : Nesting} {t : Trace} {e : Event}

/-- Only a block holds a transaction. -/
def Sound (n : Nesting) : Prop := n.inTransaction = true → n.inBlock = true

theorem Sound.after (h : n.Sound) (haccepts : n.accepts e = true) : (n.after e).Sound := by
  cases e <;> simp_all [Sound, accepts, Nesting.after, outside]

theorem Sound.readAll (h : n.Sound) (hread : n.readAll t = some m) : m.Sound := by
  induction t generalizing n with
  | nil =>
    obtain rfl := Option.some.inj hread
    exact h
  | cons e t ih =>
    obtain ⟨haccepts, hrest⟩ := Reader.readAll_cons_eq_some.mp hread
    exact ih (h.after haccepts) hrest

/-- Outside all blocks there is no transaction. -/
theorem outside_of_sound (hread : outside.readAll t = some m) (hblock : m.inBlock = false)
    (hcalls : m.calls = []) : m = outside := by
  have hsound : m.Sound := Sound.readAll (n := outside) (fun h => h) hread
  obtain ⟨inBlock, inTransaction, calls⟩ := m
  cases inTransaction with
  | false => simp_all [outside]
  | true => cases hblock.symm.trans (hsound rfl)

end Nesting

/-! ## What recorders put out -/

def Consumer.nesting (c : Consumer) : Nesting := ⟨c.block.isSome, c.inTransaction, c.calls.calls⟩

theorem Consumer.Matches.nesting {c : Consumer} {r : Recorder} {lent : Bool}
    (h : c.Matches r lent) : c.nesting = r.nesting lent := by
  simp [Consumer.nesting, Recorder.nesting, h.inBlock, h.inTransaction, h.calls]

theorem Consumer.shows_nesting : Consumer.Shows Nesting.reader Consumer.nesting where
  reads c e haccepts := by
    constructor
    · cases e <;> simp_all [Consumer.accepts, Nesting.accepts, nesting, CallStack.isEmpty_iff]
    · cases e <;> rfl
  skips a number := ⟨rfl, rfl⟩
  same c r lent h := h.nesting

namespace Nesting

theorem start_reader (lent : Bool) : reader.start lent = ⟨lent, false, []⟩ := by
  simp [Reader.start, Recorder.nesting, Recorder.fresh, Recorder.inBlock, CallStack.empty]

theorem lawful_reader : reader.Lawful where
  same r q lent hblock htransaction hcalls := by
    simp [Recorder.nesting, hblock, htransaction, hcalls]
  idle r lent htransaction hcalls := by
    rw [start_reader]
    simp [Recorder.nesting, htransaction, hcalls]
  starts r x htransaction hcalls := by
    rw [start_reader]
    refine Reader.readAll_cons_eq_some.mpr ⟨rfl, ?_⟩
    simp [after, Recorder.nesting, htransaction, hcalls, CallStack.empty]
  outside r t hread hblock hcalls := by
    rw [start_reader] at hread
    exact congrArg inTransaction
      (outside_of_sound hread (by simp [Recorder.nesting, Recorder.inBlock, hblock]) hcalls)

end Nesting

/-! ## Calls that end in the same piece of a trace -/

/-- Whether the trace goes on to end or drop a call in which so many other calls are open. -/
def Trace.closes (call depth : Nat) : Trace → Bool
  | [] => false
  | .callStart .. :: rest => closes call (depth + 1) rest
  | .callEnd ended _ _ :: rest =>
    match depth with
    | 0 => ended == call
    | depth + 1 => closes call depth rest
  | .transactionFailure _ :: _ | .blockCancel .. :: _ => true
  | _ :: rest => closes call depth rest

namespace Nesting

variable {n m : Nesting}

/-- A call that is open at the beginning and not at the end has been ended or dropped between. -/
theorem closes_of_readAll (inner : List Nat) {outer : List Nat} {call : Nat} {t : Trace}
    (h : n.readAll t = some m) (hn : n.calls = inner ++ call :: outer) (hm : m.calls = []) :
    Trace.closes call inner.length t = true := by
  -- along the trace, `inner` are the calls that were opened later and have to end first
  induction t generalizing n inner with
  | nil =>
    obtain rfl := Option.some.inj h
    simp [hn] at hm
  | cons e t ih =>
    obtain ⟨haccepts, hrest⟩ := Reader.readAll_cons_eq_some.mp h
    have hopen : n.calls ≠ [] := by simp [hn]
    cases e with
    | callStart type started =>
      exact ih (started :: inner) hrest (by simp [after, hn])
    | callEnd ended gasLeft returned =>
      cases inner with
      | nil =>
        have hended : call = ended := by simpa [accepts, hn] using haccepts
        simp [Trace.closes, hended]
      | cons first inner => exact ih inner hrest (by simp [after, hn])
    | transactionFailure reason => rfl
    | blockCancel number reason => rfl
    | blockStart number => simp_all [accepts]
    | blockEnd block totalDifficulty => simp_all [accepts]
    | transactionStart start => simp_all [accepts]
    | transactionEnd receipt => simp_all [accepts]
    | _ => exact ih inner hrest hn

end Nesting

/-! ## Ensembles -/

namespace Ensemble

variable {ι : Type} [DecidableEq ι] {forBlocks : ι → Bool} {e e' : Ensemble ι} {t : Trace}
  {entry : Entry ι} {a : Act ι}

theorem reads_nesting {acts : List (Act ι)} {j : Journal ι} (h : e.Untouched)
    (hkeeps : ∀ a ∈ acts, a.KeepsTo forBlocks) (hfits : Along Fits e acts)
    (hrun : e.run acts = .ok (e', j)) : Reads Nesting.reader forBlocks e' (j.of none) :=
  reads_run (P := fun _ _ => True) Nesting.lawful_reader h hkeeps hfits
    (along_of_forall fun _ _ _ => trivial)
    (fun _ _ _ _ _ hop hs => Consumer.shows_nesting.perform hop hs) hrun

def Act.FlushesInto (m : Option ι) : Act ι → Prop
  | .flushTransaction receiver .. | .flushBlock receiver .. => receiver = m
  | _ => False

/-- What a flush into the canonical tracer brings leads from somewhere to where no call is open. -/
theorem fits_flush (h : Reads Nesting.reader forBlocks e t) (hfits : e.Fits a)
    (henabled : (e.recorder none).enabled = true) (hflush : a.FlushesInto none)
    (hact : e.act a = .ok (e', entry)) :
    ((e.recorder none).nesting false).inTransaction = false ∧
      ((e.recorder none).nesting false).calls = [] ∧
      ∃ k m n, n.calls = [] ∧ entry = ⟨none, (e.drafts k).trace⟩ ∧
        Nesting.readAll m (e.drafts k).trace = some n := by
  cases a with
  | flushTransaction receiver k other =>
    obtain rfl : receiver = none := hflush
    obtain ⟨houtside, hcalls, hclosed⟩ := hfits henabled
    rcases act_flushTransaction_ok hact with ⟨hdisabled, -⟩ | ⟨-, -, -, -, -, rfl⟩
    · cases henabled.symm.trans hdisabled
    · exact ⟨houtside, hcalls, k, _, _, hclosed, rfl, h (some k)⟩
  | flushBlock receiver k other =>
    obtain rfl : receiver = none := hflush
    obtain ⟨hblock, hcalls, hclosed⟩ := hfits henabled
    have hbetween : (e.recorder none).nesting false = .outside :=
      Nesting.outside_of_sound (h none)
        (by simp [Recorder.nesting, Recorder.inBlock, hblock]) hcalls
    rcases act_flushBlock_ok hact with ⟨hdisabled, -⟩ | ⟨-, -, -, rfl⟩
    · cases henabled.symm.trans hdisabled
    · exact ⟨by rw [hbetween]; rfl, by rw [hbetween]; rfl, k, _, _, hclosed, rfl, h (some k)⟩
  | _ => exact absurd hflush id

/-- As long as every flush finds both sides between two units of work, the canonical trace nests,
and it is what a canonical sink that accepts every write holds. No flush comes inside a transaction
or a call of the canonical tracer, and every call that a flush brings in is ended or dropped by the
lines of the same flush. -/
theorem canonical_trace_nests {acts : List (Act ι)} {j : Journal ι} (forBlocks : ι → Bool)
    (h : e.Untouched) (hkeeps : ∀ a ∈ acts, a.KeepsTo forBlocks) (hfits : Along Fits e acts)
    (hrun : e.run acts = .ok (e', j)) :
    (e.canonical.AcceptsAll →
        e'.canonical.content = e.canonical.content ++ (j.of none).bytes) ∧
      (∀ before x rest, j.of none = before ++ x :: rest →
        ∃ n, Nesting.outside.readAll before = some n ∧ n.accepts x = true) ∧
      ∀ before a rest, acts = before ++ a :: rest → a.FlushesInto none →
        ∃ e₁ j₁ e₂ lines later n,
          e.run before = .ok (e₁, j₁) ∧ e₁.act a = .ok (e₂, ⟨none, lines⟩) ∧
          j.of none = j₁.of none ++ lines ++ later ∧
          Nesting.outside.readAll (j₁.of none) = some n ∧ n.inTransaction = false ∧ n.calls = [] ∧
          ∀ inner type call outer, lines = inner ++ .callStart type call :: outer →
            Trace.closes call 0 outer = true := by
  have hread : Nesting.outside.readAll (j.of none) = some ((e'.recorder none).nesting false) :=
    reads_nesting h hkeeps hfits hrun none
  refine ⟨fun haccepts => content_run haccepts hrun, fun before x rest hj => ?_, ?_⟩
  · rw [hj] at hread
    obtain ⟨n, hbefore, haccepts, -⟩ := Reader.readAll_append_cons.mp hread
    exact ⟨n, hbefore, haccepts⟩
  · rintro before a rest rfl hflush
    obtain ⟨e₁, j₁, j₂, hbefore, hrest, rfl⟩ := run_append.mp hrun
    obtain ⟨e₂, entry, later, hact, hlater, rfl⟩ := run_cons.mp hrest
    obtain ⟨hfitsBefore, hfitsRest⟩ := along_append hfits hbefore
    have hnested : Reads Nesting.reader forBlocks e₁ (j₁.of none) :=
      reads_nesting h (fun a ha => hkeeps a (by simp [ha])) hfitsBefore hbefore
    have henabled : (e₁.recorder none).enabled = true := by
      obtain ⟨progress, hfresh⟩ := h.canonical
      rw [enabled_run hbefore]
      exact congrArg Recorder.enabled hfresh
    -- the lines of the flush lead from no call to no call, so each call in them is closed by them
    obtain ⟨houtside, hcalls, k, _, n, hclosed, rfl, hdraft⟩ :=
      fits_flush hnested hfitsRest.1 henabled hflush hact
    refine ⟨e₁, j₁, e₂, _, later.of none, _, hbefore, hact, ?_, hnested none, houtside, hcalls, ?_⟩
    · simp [Entry.of]
    · intro inner type call outer hlines
      rw [hlines] at hdraft
      obtain ⟨b, -, -, houter⟩ := Reader.readAll_append_cons.mp hdraft
      exact Nesting.closes_of_readAll [] houter rfl hclosed

/-- The draft `false` is for transactions, the draft `true` for blocks. -/
def flushed : List (Act Bool) :=
  [.perform none (.startBlock (Consumer.plainBlock 7)), startSample false,
   .perform (some false) (.startCall .call), .perform (some false) (.endCall 0 []),
   .perform (some false) (.failTransaction "bad nonce"),
   .flushTransaction none false (canonical_ne _),
   .perform none (.endBlock (Consumer.plainBlock 7) none),
   .perform (some true) (.startBlock (Consumer.plainBlock 8)),
   .perform (some true) (.cancelBlock (Consumer.plainBlock 8) "reorg"),
   .flushBlock none true (canonical_ne _)]

theorem canonical_trace_nests_flushed :
    ∃ e' j, sample.run flushed = .ok (e', j) ∧
      sample.Untouched ∧ (∀ a ∈ flushed, a.KeepsTo id) ∧ Along Fits sample flushed ∧
      ∀ before x rest, j.of none = before ++ x :: rest →
        ∃ n, Nesting.outside.readAll before = some n ∧ n.accepts x = true := by
  have hkeeps : ∀ a ∈ flushed, a.KeepsTo id := by
    simp [flushed, startSample, Act.KeepsTo, Operation.isBoundary]
  have hfits : Along Fits sample flushed :=
    ⟨trivial, trivial, trivial, trivial, trivial, fun _ => ⟨rfl, rfl, rfl⟩, trivial, trivial,
      trivial, fun _ => ⟨rfl, rfl, rfl⟩, trivial⟩
  exact ⟨_, _, rfl, untouched_sample, hkeeps, hfits,
    (canonical_trace_nests id untouched_sample hkeeps hfits rfl).2.1⟩

def blockInBlock : List (Act Bool) :=
  [.perform none (.startBlock (Consumer.plainBlock 7)),
   .perform (some true) (.startBlock (Consumer.plainBlock 8)),
   .perform (some true) (.cancelBlock (Consumer.plainBlock 8) "reorg"),
   .flushBlock none true (canonical_ne _)]

/-- A transaction is recorded in the draft and flushed behind what the canonical tracer does in its
block and what the draft does behind its transaction. -/
def flushBehind (canonical draft : List Operation) : List (Act Bool) :=
  .perform none (.startBlock (Consumer.plainBlock 7)) :: canonical.map (.perform none) ++
    [startSample false, .perform (some false) (.failTransaction "bad nonce")] ++
    draft.map (.perform (some false)) ++ [.flushTransaction none false (canonical_ne _)]

/-- Flushes that do not fit are accepted: of a block inside a block, of a transaction inside a
transaction or a call, and of a call without its end. -/
theorem misfits_break_nesting :
    (∃ e j, sample.run blockInBlock = .ok (e, j) ∧ Nesting.outside.readAll (j.of none) = none) ∧
      (∃ e j, sample.run (flushBehind [.startTransaction Consumer.plainTransaction 0 none] []) =
        .ok (e, j) ∧ Nesting.outside.readAll (j.of none) = none) ∧
      (∃ e j, sample.run (flushBehind [.startCall .call] []) = .ok (e, j) ∧
        Nesting.outside.readAll (j.of none) = none) ∧
      ∃ e j before type call, sample.run (flushBehind [] [.startCall .call]) = .ok (e, j) ∧
        j.of none = before ++ [.callStart type call] :=
  ⟨⟨_, _, rfl, rfl⟩, ⟨_, _, rfl, rfl⟩, ⟨_, _, rfl, rfl⟩, _, _, [_, _, _], _, _, rfl, rfl⟩

end Ensemble
end EvmTrace
