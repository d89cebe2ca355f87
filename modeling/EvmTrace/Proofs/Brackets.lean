import EvmTrace.Proofs.Emission
import EvmTrace.Proofs.Nesting

/-!
# Every started call is ended

The starts and ends of the calls of a transaction are the brackets of a balanced word, in which each
call has its own number. That a transaction may fail while calls are open is the one exception,
since nobody looks whether there are any.
-/
namespace EvmTrace

/-! ## Brackets -/

/-- The start or the end of a call. -/
inductive CallBracket
  | opening (call : Nat)
  | closing (call : Nat)
  deriving DecidableEq, Repr

/-- Every call that is started is ended behind all that were started in it. -/
inductive Balanced : List CallBracket → Prop
  | nil : Balanced []
  | wrap (call : Nat) {inner rest : List CallBracket} : Balanced inner → Balanced rest →
      Balanced (.opening call :: inner ++ .closing call :: rest)

/-- Ends the calls that are open, innermost first, with balanced words before, between and behind
their ends. -/
inductive Ends : List Nat → List CallBracket → Prop
  | done {word : List CallBracket} : Balanced word → Ends [] word
  | next (call : Nat) {outer : List Nat} {word rest : List CallBracket} : Balanced word →
      Ends outer rest → Ends (call :: outer) (word ++ .closing call :: rest)

theorem Ends.balanced {word : List CallBracket} (h : Ends [] word) : Balanced word := by
  cases h with
  | done hword => exact hword

theorem Ends.first {call : Nat} {outer : List Nat} {word : List CallBracket}
    (h : Ends (call :: outer) word) :
    ∃ inner rest, word = inner ++ .closing call :: rest ∧ Balanced inner := by
  cases h with
  | next _ hinner _ => exact ⟨_, _, rfl, hinner⟩

/-- A call that is started here is ended first. -/
theorem Ends.opening {call : Nat} {outer : List Nat} {word : List CallBracket}
    (h : Ends (call :: outer) word) : Ends outer (.opening call :: word) := by
  cases h with
  | next _ hinner hrest =>
    cases hrest with
    | done hword => exact .done (.wrap call hinner hword)
    | next last hword hrest =>
      have hwrapped := Ends.next last (Balanced.wrap call hinner hword) hrest
      simpa using hwrapped

namespace Event

def bracket? : Event → Option CallBracket
  | callStart _ call => some (.opening call)
  | callEnd call .. => some (.closing call)
  | _ => none

def isFailure : Event → Bool
  | transactionFailure _ => true
  | _ => false

def isCancel : Event → Bool
  | blockCancel .. => true
  | _ => false

def endsTransaction : Event → Bool
  | transactionEnd _ | transactionFailure _ => true
  | _ => false

/-- Starts or ends a block or a transaction. -/
def separates : Event → Bool
  | blockStart _ | blockEnd .. | transactionStart _ | transactionEnd _ | transactionFailure _ =>
    true
  | _ => false

theorem keeps_of_not_restarts {e : Event} (h : e.restarts = false) :
    e.isCancel = false ∧ e.isFailure = false := by
  cases e <;> simp_all [restarts, isCancel, isFailure]

theorem separates_of_endsTransaction {e : Event} (h : e.endsTransaction = true) :
    e.separates = true := by
  cases e <;> simp_all [endsTransaction, separates]

end Event

namespace Trace

def brackets (t : Trace) : List CallBracket := t.filterMap Event.bracket?

/-- The calls of the trace nest, and after its start each is ended once. -/
def EndsCalls (t : Trace) : Prop :=
  Balanced t.brackets ∧ ∀ inner type call (outer : Trace),
    t = inner ++ .callStart type call :: outer → outer.brackets.count (.closing call) = 1

end Trace

/-! ## A reader of calls -/

/-- Where a trace stands, and how many calls the transaction has started if there is one. -/
structure Ledger where
  nesting : Nesting
  started : Option Nat
  deriving DecidableEq, Repr

def Consumer.ledger (c : Consumer) : Ledger :=
  ⟨c.nesting, if c.inTransaction then some c.calls.opened else none⟩

def Recorder.ledger (r : Recorder) (lent : Bool) : Ledger :=
  ⟨r.nesting lent, if r.inTransaction then some r.calls.opened else none⟩

namespace Ledger

/-- The calls of a transaction are numbered from 1 on. -/
def accepts (l : Ledger) (e : Event) : Bool :=
  l.nesting.accepts e && match e with
    | .callStart _ call => l.started.all fun n => call == n + 1
    | _ => true

def after (l : Ledger) (e : Event) : Ledger :=
  ⟨l.nesting.after e, match e with
    | .transactionStart _ => some 0
    | .transactionEnd _ | .transactionFailure _ | .blockCancel .. => none
    | .callStart .. => l.started.map (· + 1)
    | _ => l.started⟩

@[simps] def reader : Reader Ledger := ⟨accepts, after, Recorder.ledger⟩

theorem start_reader (lent : Bool) : reader.start lent = ⟨⟨lent, false, []⟩, none⟩ := by
  rw [← Nesting.start_reader]
  rfl

variable {l l' : Ledger} {t : Trace} {e : Event}

theorem nesting_of_readAll (h : reader.readAll l t = some l') :
    Nesting.readAll l.nesting t = some l'.nesting :=
  Reader.readAll_map (S := Nesting.reader) nesting
    (fun _ _ haccepts => ⟨(Bool.and_eq_true_iff.mp haccepts).1, rfl⟩) h

theorem lawful_reader : reader.Lawful where
  same r q lent hblock htransaction hcalls := by
    simp [Recorder.ledger, Recorder.nesting, hblock, htransaction, hcalls]
  idle r lent htransaction hcalls := by
    rw [start_reader]
    simp [Recorder.ledger, Recorder.nesting, htransaction, hcalls]
  starts r x htransaction hcalls := by
    rw [start_reader]
    refine Reader.readAll_cons_eq_some.mpr ⟨rfl, ?_⟩
    simp [after, Nesting.after, Recorder.ledger, Recorder.nesting, htransaction, hcalls,
      CallStack.empty]
  outside r t hread hblock hcalls := by
    refine Nesting.lawful_reader.outside r t ?_ hblock hcalls
    rw [start_reader] at hread
    rw [Nesting.start_reader]
    exact nesting_of_readAll hread

/-- If `strict`, no call is open when a transaction fails. -/
def settles (strict : Bool) (l : Ledger) : Event → Bool
  | .transactionFailure _ => !strict || l.nesting.calls.isEmpty
  | _ => true

theorem settles_of_not_failure {strict : Bool} (h : e.isFailure = false) (l : Ledger) :
    l.settles strict e = true := by
  cases e <;> first | rfl | cases h

/-- A reader that, if `strict`, sees to it that no transaction fails while calls are open. -/
def settling (strict : Bool) : Reader Ledger := reader.guarded (settles strict)

theorem lawful_settling (strict : Bool) : (settling strict).Lawful :=
  lawful_reader.guarded fun _ _ => rfl

end Ledger

theorem Consumer.shows_ledger : Consumer.Shows Ledger.reader Consumer.ledger where
  reads c e haccepts := by
    obtain ⟨hnesting, hafter⟩ := shows_nesting.reads c e haccepts
    have hstarted : Ledger.accepts c.ledger e = true ∧
        (Ledger.after c.ledger e).started = (c.after e).ledger.started := by
      have hplace : c.ledger.nesting.accepts e = true := hnesting
      cases htransaction : c.inTransaction <;> cases e <;>
        simp_all [Consumer.accepts, Ledger.accepts, ledger, Ledger.after, Consumer.after,
          Consumer.start, CallStack.empty]
    exact ⟨hstarted.1, congrArg₂ Ledger.mk hafter hstarted.2⟩
  skips a number := ⟨rfl, rfl⟩
  same c r lent h := by
    rw [ledger, h.nesting, h.inTransaction, h.calls]
    rfl

namespace Recorder

variable {r : Recorder} {s : Step} {op : Operation}

theorem eq_failTransaction_of_mem {reason : String}
    (h : .transactionFailure reason ∈ r.emission op) : op = .failTransaction reason := by
  cases op with
  | failTransaction told => simpa [emission, eq_comm] using h
  | endFailedCall gasLeft isRevert reason => cases isRevert <;> simp [emission] at h
  | _ => simp [emission] at h

/-- Only one operation tells that a transaction failed, and puts out nothing else then. -/
theorem settles_record (h : r.record op = .ok s) :
    (∀ x ∈ s.trace, x.isFailure = false) ∨
      ∃ reason, op = .failTransaction reason ∧ s.trace = [.transactionFailure reason] := by
  rw [trace_record h]
  cases op with
  | failTransaction reason => exact .inr ⟨reason, rfl, rfl⟩
  | _ =>
    refine .inl fun x hx => ?_
    cases x with
    | transactionFailure reason => cases eq_failTransaction_of_mem hx
    | _ => rfl

/-- A recorder whose transactions fail with no call open can be read by one who sees to that. -/
theorem reads_settling {strict lent : Bool}
    (hsettled : strict = true → ∀ reason, op = .failTransaction reason → r.calls.calls = [])
    (hop : lent = true → op.isBoundary = false) (h : r.perform op = .ok s) :
    (Ledger.settling strict).readAll (r.ledger lent) s.trace =
      some (s.recorder.ledger lent) := by
  have hread : Ledger.reader.readAll (r.ledger lent) s.trace = some (s.recorder.ledger lent) :=
    Consumer.shows_ledger.perform hop h
  have hnone (hfailure : ∀ x ∈ s.trace, x.isFailure = false) :
      (Ledger.settling strict).readAll (r.ledger lent) s.trace =
        some (s.recorder.ledger lent) :=
    Reader.readAll_guarded (fun x hx l => Ledger.settles_of_not_failure (hfailure x hx) l) hread
  cases henabled : r.enabled with
  | false =>
    rw [perform_disabled _ op henabled] at h
    obtain rfl := Except.ok.inj h
    rcases r.trace_ignore op with htrace | ⟨number, htrace⟩
    · exact hnone (by simp [htrace])
    · exact hnone (by simp [htrace, Event.isFailure])
  | true =>
    rw [perform_enabled henabled] at h
    rcases settles_record h with hfailure | ⟨reason, rfl, htrace⟩
    · exact hnone hfailure
    · rw [htrace] at hread ⊢
      refine Reader.readAll_guarded_singleton ?_ hread
      cases strict with
      | false => rfl
      | true => simp [Ledger.settles, ledger, nesting, hsettled rfl reason rfl]

end Recorder

/-! ## What a reader of calls knows -/

theorem Trace.closing_of_brackets {t : Trace} {call : Nat} {word rest : List CallBracket}
    (h : t.brackets = word ++ .closing call :: rest) : ∃ (within : Trace) (gasLeft : UInt64)
      (returned : Bytes) (after : Trace),
      t = within ++ .callEnd call gasLeft returned :: after ∧ within.brackets = word := by
  obtain ⟨before, later, rfl, rfl, hlater⟩ := List.filterMap_eq_append_iff.mp h
  obtain ⟨skipped, x, after, rfl, hskipped, hx, -⟩ := List.filterMap_eq_cons_iff.mp hlater
  cases x with
  | callEnd ended gasLeft returned =>
    obtain rfl : ended = call := by simpa [Event.bracket?] using hx
    refine ⟨before ++ skipped, gasLeft, returned, after, by simp, ?_⟩
    rw [brackets, List.filterMap_append, List.filterMap_eq_nil_iff.mpr hskipped, List.append_nil]
  | _ => simp [Event.bracket?] at hx

theorem Balanced.count {word : List CallBracket} (h : Balanced word) (call : Nat) :
    word.count (.closing call) = word.count (.opening call) := by
  induction h with
  | nil => rfl
  | wrap started _ _ hinner hrest =>
    simp only [List.cons_append, List.count_cons, List.count_append, hinner, hrest]
    simp
    omega

theorem Ends.count {calls : List Nat} {word : List CallBracket} (h : Ends calls word)
    (call : Nat) : word.count (.closing call) = word.count (.opening call) + calls.count call := by
  induction h with
  | done hword => simp [hword.count]
  | next ended hword _ hrest =>
    simp only [List.count_cons, List.count_append, hword.count, hrest]
    simp
    omega

namespace Ledger

variable {strict : Bool} {l l' : Ledger} {t : Trace}

/-- Calls that are open are ended on the way to where none is, unless a line drops them. -/
theorem ends_of_readAll (h : (settling strict).readAll l t = some l')
    (hkept : ∀ x ∈ t, x.isCancel = false ∧ (x.isFailure = true → strict = true))
    (hl' : l'.nesting.calls = []) : Ends l.nesting.calls t.brackets := by
  induction t generalizing l with
  | nil =>
    obtain rfl := Option.some.inj h
    rw [hl']
    exact .done .nil
  | cons e t ih =>
    obtain ⟨haccepts, hrest⟩ := Reader.readAll_cons_eq_some.mp h
    obtain ⟨hsettles, hledger⟩ := Bool.and_eq_true_iff.mp haccepts
    have hnesting : l.nesting.accepts e = true := (Bool.and_eq_true_iff.mp hledger).1
    have hafter := ih hrest fun x hx => hkept x (by simp [hx])
    obtain ⟨hcancel, hfailure⟩ := hkept e (by simp)
    cases e with
    | callStart type call => exact hafter.opening
    | callEnd call gasLeft returned =>
      obtain ⟨outer, hcalls⟩ : ∃ outer, l.nesting.calls = call :: outer := by
        simpa [Nesting.accepts, List.head?_eq_some_iff] using hnesting
      have hends : Ends l.nesting.calls.tail (Trace.brackets t) := hafter
      rw [hcalls] at hends ⊢
      exact .next call .nil hends
    | transactionStart start =>
      have hcalls : l.nesting.calls = [] := by simp_all [Nesting.accepts]
      rw [hcalls]
      exact hafter
    | transactionEnd receipt =>
      have hcalls : l.nesting.calls = [] := by simp_all [Nesting.accepts]
      rw [hcalls]
      exact hafter
    | transactionFailure reason =>
      have hcalls : l.nesting.calls = [] := by simpa [settles, hfailure rfl] using hsettles
      rw [hcalls]
      exact hafter
    | blockCancel number reason => cases hcancel
    | _ => exact hafter

/-- No number is given twice to calls of one transaction. -/
theorem count_opening (h : (settling strict).readAll l t = some l')
    (hinside : ∀ x ∈ t, x.restarts = false) {n : Nat} (hl : l.started = some n) (call : Nat) :
    t.brackets.count (.opening call) ≤ if n < call then 1 else 0 := by
  induction t generalizing l n with
  | nil => simp [Trace.brackets]
  | cons e t ih =>
    obtain ⟨haccepts, hrest⟩ := Reader.readAll_cons_eq_some.mp h
    have hledger : l.accepts e = true := (Bool.and_eq_true_iff.mp haccepts).2
    have hrestInside : ∀ x ∈ t, x.restarts = false := fun x hx => hinside x (by simp [hx])
    have hin := hinside e (by simp)
    cases e with
    | callStart type started =>
      have hnumber : started = n + 1 := by
        simpa [hl] using (Bool.and_eq_true_iff.mp hledger).2
      have hlater : (Trace.brackets t).count (.opening call) ≤ if n + 1 < call then 1 else 0 :=
        ih hrest hrestInside (by simp [settling, after, hl])
      have hcount : (Trace.brackets (.callStart type started :: t)).count (.opening call) =
          (Trace.brackets t).count (.opening call) + if started = call then 1 else 0 := by
        simp [Trace.brackets, Event.bracket?, List.count_cons]
      rw [hcount, hnumber]
      split at hlater <;> split <;> split <;> omega
    | callEnd ended gasLeft returned =>
      have hcount : (Trace.brackets (.callEnd ended gasLeft returned :: t)).count (.opening call) =
          (Trace.brackets t).count (.opening call) := by
        simp [Trace.brackets, Event.bracket?]
      rw [hcount]
      exact ih hrest hrestInside hl
    | transactionStart | transactionEnd | transactionFailure | blockCancel => cases hin
    | _ => exact ih hrest hrestInside hl

/-- No call is open where a block or a transaction starts or ends. -/
theorem calls_of_separates {e : Event} (h : (settling strict).accepts l e = true)
    (he : e.separates = true) (hfailure : e.isFailure = true → strict = true) :
    l.nesting.calls = [] := by
  obtain ⟨hsettles, hledger⟩ := Bool.and_eq_true_iff.mp h
  have hnesting : l.nesting.accepts e = true := (Bool.and_eq_true_iff.mp hledger).1
  cases e with
  | blockStart | blockEnd | transactionStart | transactionEnd => simp_all [Nesting.accepts]
  | transactionFailure reason => simpa [settles, hfailure rfl] using hsettles
  | _ => cases he

/-- From where a transaction has started no call to where none is open, every call is ended. -/
theorem endsCalls_of_readAll (h : (settling strict).readAll l t = some l')
    (hinside : ∀ x ∈ t, x.restarts = false) (hstarted : l.started = some 0)
    (hl : l.nesting.calls = []) (hl' : l'.nesting.calls = []) : t.EndsCalls := by
  have hkept : ∀ x ∈ t, x.isCancel = false ∧ (x.isFailure = true → strict = true) := by
    intro x hx
    obtain ⟨hcancel, hfailure⟩ := Event.keeps_of_not_restarts (hinside x hx)
    exact ⟨hcancel, fun hfails => by cases hfailure.symm.trans hfails⟩
  have hbalanced : Balanced t.brackets := by
    have hends := ends_of_readAll h hkept hl'
    rw [hl] at hends
    exact hends.balanced
  refine ⟨hbalanced, ?_⟩
  rintro inner type call outer rfl
  -- the end that is due comes behind the start, and the trace as a whole has only one
  have hleast : 1 ≤ outer.brackets.count (.closing call) := by
    obtain ⟨b, -, -, houter⟩ := Reader.readAll_append_cons.mp h
    have hends : Ends (call :: b.nesting.calls) outer.brackets :=
      ends_of_readAll houter (fun x hx => hkept x (by simp [hx])) hl'
    rw [hends.count call]
    have hopen : 1 ≤ (call :: b.nesting.calls).count call := by simp
    omega
  have hmost : outer.brackets.count (.closing call) ≤ 1 := by
    have hstarts := count_opening h hinside hstarted call
    rw [← hbalanced.count] at hstarts
    have hpart : outer.brackets.count (.closing call) ≤
        (Trace.brackets (inner ++ .callStart type call :: outer)).count (.closing call) := by
      simp [Trace.brackets, Event.bracket?]
    split at hstarts <;> omega
  omega

end Ledger

/-! ## Ensembles -/

namespace Ensemble

variable {ι : Type} [DecidableEq ι] {e e' : Ensemble ι} {acts : List (Act ι)} {j : Journal ι}

/-- Transactions fail while no call is open in them. -/
def FailsBetweenCalls (e : Ensemble ι) : Act ι → Prop
  | .perform m (.failTransaction _) => (e.recorder m).calls.calls = []
  | _ => True

theorem reads_settling (strict : Bool) {forBlocks : ι → Bool} (h : e.Untouched)
    (hkeeps : ∀ a ∈ acts, a.KeepsTo forBlocks) (hfits : Along Fits e acts)
    (hsettled : strict = true → Along FailsBetweenCalls e acts)
    (hrun : e.run acts = .ok (e', j)) :
    Reads (Ledger.settling strict) forBlocks e' (j.of none) := by
  refine reads_run (Ledger.lawful_settling strict) h hkeeps hfits (along_when hsettled) ?_ hrun
  intro e m op s hP hop hs
  refine Recorder.reads_settling (fun hstrict reason hreason => ?_) hop hs
  subst hreason
  exact hP hstrict

/-- In a transaction that ends, all calls nest and each is ended once. In one that fails they do as
long as transactions fail between calls; then only a block that is cancelled drops calls, inside
transactions or not. Of a member that works alone no flush is asked to fit. -/
theorem started_calls_end (forBlocks : ι → Bool) (h : e.Untouched)
    (hkeeps : ∀ a ∈ acts, a.KeepsTo forBlocks) (hfits : Along Fits e acts)
    (hrun : e.run acts = .ok (e', j)) :
    (e.canonical.AcceptsAll →
        e'.canonical.content = e.canonical.content ++ (j.of none).bytes) ∧
      ∀ m,
        (∀ (before : Trace) start (body : Trace) close rest,
          e'.lines (j.of none) m = before ++ .transactionStart start :: (body ++ close :: rest) →
          (∀ x ∈ body, x.restarts = false) → close.endsTransaction = true →
          (close.isFailure = true → Along FailsBetweenCalls e acts) → body.EndsCalls) ∧
        (Along FailsBetweenCalls e acts → ∀ (before : Trace) type call (inner : Trace) x rest,
          e'.lines (j.of none) m = before ++ .callStart type call :: (inner ++ x :: rest) →
          x.separates = true → (∀ y ∈ inner, y.isCancel = false) →
          ∃ (within : Trace) (gasLeft : UInt64) (returned : Bytes) (after : Trace),
            inner = within ++ .callEnd call gasLeft returned :: after ∧
              Balanced within.brackets) := by
  refine ⟨fun haccepts => content_run haccepts hrun, fun m => ⟨?_, ?_⟩⟩
  · intro before start body close rest hlines hinside hclose hfailure
    have hread := reads_settling close.isFailure h hkeeps hfits hfailure hrun m
    rw [hlines] at hread
    obtain ⟨b, -, -, hlater⟩ := Reader.readAll_append_cons.mp hread
    obtain ⟨l, hbody, haccepts, -⟩ := Reader.readAll_append_cons.mp hlater
    exact Ledger.endsCalls_of_readAll hbody hinside rfl rfl
      (Ledger.calls_of_separates haccepts (Event.separates_of_endsTransaction hclose) id)
  · intro hsettled before type call inner x rest hlines hx hinner
    have hread := reads_settling true h hkeeps hfits (fun _ => hsettled) hrun m
    rw [hlines] at hread
    obtain ⟨b, -, -, hlater⟩ := Reader.readAll_append_cons.mp hread
    obtain ⟨l, hrest, haccepts, -⟩ := Reader.readAll_append_cons.mp hlater
    have hends : Ends (call :: b.nesting.calls) inner.brackets :=
      Ledger.ends_of_readAll hrest (fun y hy => ⟨hinner y hy, fun _ => rfl⟩)
        (Ledger.calls_of_separates haccepts hx fun _ => rfl)
    obtain ⟨word, later, hword, hbalanced⟩ := hends.first
    obtain ⟨within, gasLeft, returned, after, hinner, rfl⟩ := Trace.closing_of_brackets hword
    exact ⟨within, gasLeft, returned, after, hinner, hbalanced⟩

/-- Two nested calls and one behind them, in a transaction that fails. -/
def settled : List (Act Bool) :=
  [.perform none (.startBlock (Consumer.plainBlock 7)), startSample false,
   .perform (some false) (.startCall .call), .perform (some false) (.startCall .delegateCall),
   .perform (some false) (.endCall 0 []), .perform (some false) (.endCall 0 []),
   .perform (some false) (.startCall .create), .perform (some false) (.endCall 0 []),
   .perform (some false) (.failTransaction "bad nonce"),
   .flushTransaction none false (canonical_ne _)]

theorem started_calls_end_settled :
    sample.Untouched ∧ (∀ a ∈ settled, a.KeepsTo id) ∧ Along Fits sample settled ∧
      Along FailsBetweenCalls sample settled ∧
      ∃ e' j before start, ∃ body : Trace, sample.run settled = .ok (e', j) ∧
        j.of none = before ++ .transactionStart start ::
          (body ++ [.transactionFailure "bad nonce"]) ∧
        body.brackets = [.opening 1, .opening 2, .closing 2, .closing 1, .opening 3, .closing 3] ∧
        body.EndsCalls := by
  have hkeeps : ∀ a ∈ settled, a.KeepsTo id := by
    simp [settled, startSample, Act.KeepsTo, Operation.isBoundary]
  have hfits : Along Fits sample settled :=
    ⟨trivial, trivial, trivial, trivial, trivial, trivial, trivial, trivial, trivial,
      fun _ => ⟨rfl, rfl, rfl⟩, trivial⟩
  have hsettled : Along FailsBetweenCalls sample settled :=
    ⟨trivial, trivial, trivial, trivial, trivial, trivial, trivial, trivial, rfl, trivial, trivial⟩
  obtain ⟨-, hended⟩ := started_calls_end id untouched_sample hkeeps hfits rfl
  refine ⟨untouched_sample, hkeeps, hfits, hsettled, _, _, [_], _, [_, _, _, _, _, _], rfl, rfl,
    rfl, ?_⟩
  exact (hended none).1 [_] _ [_, _, _, _, _, _] _ [] rfl (by decide) rfl fun _ => hsettled

/-- A transaction fails while a call in it is open, and the call is never ended. -/
theorem failure_leaves_call_open :
    ∃ s start, (Recorder.fresh true false).run
        [.startBlock (Consumer.plainBlock 7), .startTransaction Consumer.plainTransaction 0 none,
         .startCall .call, .failTransaction "x", .endBlock (Consumer.plainBlock 7) none] = .ok s ∧
      s.trace = [.blockStart 7, .transactionStart start, .callStart .call 1,
        .transactionFailure "x", .blockEnd (Consumer.plainBlock 7) none] ∧
      ¬ Trace.EndsCalls [.callStart .call 1] := by
  refine ⟨_, _, rfl, rfl, fun hended => ?_⟩
  cases hended.2 [] .call 1 [] rfl

end Ensemble
end EvmTrace
