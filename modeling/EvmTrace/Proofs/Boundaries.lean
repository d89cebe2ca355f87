import EvmTrace.Proofs.Nesting
import EvmTrace.Proofs.Progress

/-!
# Boundaries of blocks

At each line that starts or ends a block or announces it as final, all calls that were started are
ended or dropped, and so are the transactions. That a block may be announced as final inside a
transaction is the one exception, since nobody looks whether there is one.
-/
namespace EvmTrace

namespace Event

/-- Tells of a boundary of a block. -/
def boundsBlock : Event → Bool
  | blockStart _ | blockFinal _ | blockEnd .. => true
  | _ => false

end Event

namespace Trace

/-- Whether the trace goes on to end, fail or drop a transaction before the next one starts. -/
def finishes : Trace → Bool
  | [] => false
  | .transactionStart _ :: _ => false
  | .transactionEnd _ :: _ | .transactionFailure _ :: _ | .blockCancel .. :: _ => true
  | _ :: rest => finishes rest

/-- All calls that are started are ended or dropped. -/
def ClosesCalls (t : Trace) : Prop :=
  ∀ before type call after, t = before ++ .callStart type call :: after →
    closes call 0 after = true

/-- All transactions that are started are ended, failed or dropped. -/
def ClosesTransactions (t : Trace) : Prop :=
  ∀ before start after, t = before ++ .transactionStart start :: after → finishes after = true

end Trace

namespace Nesting

variable {n m : Nesting} {t : Trace} {e : Event}

theorem closesCalls_of_readAll (h : n.readAll t = some m) (hm : m.calls = []) :
    t.ClosesCalls := by
  rintro before type call after rfl
  obtain ⟨b, -, -, hafter⟩ := Reader.readAll_append_cons.mp h
  exact closes_of_readAll [] hafter rfl hm

theorem finishes_of_readAll (h : n.readAll t = some m) (hn : n.inTransaction = true)
    (hm : m.inTransaction = false) : t.finishes = true := by
  induction t generalizing n with
  | nil =>
    obtain rfl := Option.some.inj h
    cases hn.symm.trans hm
  | cons e t ih =>
    obtain ⟨haccepts, hrest⟩ := Reader.readAll_cons_eq_some.mp h
    cases e with
    | transactionEnd receipt => rfl
    | transactionFailure reason => rfl
    | blockCancel number reason => rfl
    | transactionStart start => simp [accepts, hn] at haccepts
    | _ => exact ih hrest hn

theorem closesTransactions_of_readAll (h : n.readAll t = some m)
    (hm : m.inTransaction = false) : t.ClosesTransactions := by
  rintro before start after rfl
  obtain ⟨b, -, -, hafter⟩ := Reader.readAll_append_cons.mp h
  exact finishes_of_readAll hafter rfl hm

/-- No call is open when a block is announced as final, and no transaction either if `outside`. -/
def announces (outside : Bool) (n : Nesting) : Event → Bool
  | .blockFinal _ => n.calls.isEmpty && !(outside && n.inTransaction)
  | _ => true

theorem announces_of_not_final {outside : Bool} (h : e.isFinal = false) (n : Nesting) :
    n.announces outside e = true := by
  cases e <;> first | rfl | cases h

/-- A reader that sees to it that no block is announced as final at the wrong moment. -/
def announcing (outside : Bool) : Reader Nesting := reader.guarded (announces outside)

theorem lawful_announcing (outside : Bool) : (announcing outside).Lawful :=
  lawful_reader.guarded fun _ _ => rfl

/-- At a boundary no call is open. -/
theorem calls_of_boundary {outside : Bool} (h : (announcing outside).accepts n e = true)
    (he : e.boundsBlock = true) : n.calls = [] := by
  cases e with
  | blockStart | blockFinal | blockEnd =>
    simp_all [announcing, accepts, announces]
  | _ => cases he

/-- Unless a block may be announced as final inside a transaction, there is none at a boundary. -/
theorem inTransaction_of_boundary {outside : Bool} (hn : n.Sound)
    (h : (announcing outside).accepts n e = true) (he : e.boundsBlock = true)
    (hfinal : e.isFinal = true → outside = true) : n.inTransaction = false := by
  cases e with
  | blockStart number =>
    have hblock : n.inBlock = false := by
      simp_all [announcing, accepts]
    exact Bool.eq_false_iff.mpr fun htransaction => by
      rw [hn htransaction] at hblock
      cases hblock
  | blockFinal number =>
    simpa [announcing, announces, hfinal rfl, accepts] using
      (Bool.and_eq_true_iff.mp (Bool.and_eq_true_iff.mp h).1).2
  | blockEnd block totalDifficulty =>
    simp_all [announcing, accepts]
  | _ => cases he

end Nesting

namespace Recorder

variable {r : Recorder} {s : Step} {op : Operation}

/-- Only one operation announces a final block, and puts out nothing else then. -/
theorem announces_record (h : r.record op = .ok s) :
    (∀ x ∈ s.trace, x.isFinal = false) ∨
      ∃ block, op = .finalizeBlock block ∧ s.trace = [.blockFinal block.number] ∧
        r.calls.calls = [] := by
  cases op with
  | finalizeBlock block =>
    obtain ⟨-, hcalls, rfl⟩ := finalizeBlock_eq_ok.mp h
    exact .inr ⟨block, rfl, rfl, hcalls⟩
  | _ => exact .inl (by simpa using List.filter_eq_nil_iff.mp (filter_record h))

/-- A recorder that announces final blocks outside transactions can be read by one who sees to
that. -/
theorem reads_announcing {outside lent : Bool} (hsilent : r.IsSilent)
    (houtside : outside = true → ∀ block, op = .finalizeBlock block → r.inTransaction = false)
    (hop : lent = true → op.isBoundary = false) (h : r.perform op = .ok s) :
    (Nesting.announcing outside).readAll (r.nesting lent) s.trace =
      some (s.recorder.nesting lent) := by
  have hread : Nesting.reader.readAll (r.nesting lent) s.trace = some (s.recorder.nesting lent) :=
    Consumer.shows_nesting.perform hop h
  have hfinal {number : UInt64} (htrace : s.trace = [.blockFinal number])
      (hcalls : r.calls.calls = []) (houtside : outside = true → r.inTransaction = false) :
      (Nesting.announcing outside).readAll (r.nesting lent) s.trace =
        some (s.recorder.nesting lent) := by
    rw [htrace] at hread ⊢
    refine Reader.readAll_guarded_singleton ?_ hread
    cases outside <;> simp_all [Nesting.announces, nesting]
  cases henabled : r.enabled with
  | false =>
    obtain ⟨progress, rfl⟩ := hsilent henabled
    rw [perform_disabled _ op rfl] at h
    obtain rfl := Except.ok.inj h
    rcases trace_ignore (.fresh false progress) op with htrace | ⟨number, htrace⟩
    · rw [htrace] at hread ⊢
      exact hread
    · exact hfinal htrace rfl fun _ => rfl
  | true =>
    rw [perform_enabled henabled] at h
    rcases announces_record h with hnone | ⟨block, rfl, htrace, hcalls⟩
    · exact Reader.readAll_guarded
        (fun x hx n => Nesting.announces_of_not_final (hnone x hx) n) hread
    · exact hfinal htrace hcalls fun hout => houtside hout block rfl

end Recorder

/-! ## Ensembles -/

namespace Ensemble

variable {ι : Type} [DecidableEq ι] {e e' : Ensemble ι} {acts : List (Act ι)} {j : Journal ι}
  {forBlocks : ι → Bool}

/-- Blocks are announced as final outside all transactions. -/
def AnnouncesOutside (e : Ensemble ι) : Act ι → Prop
  | .perform m (.finalizeBlock _) => (e.recorder m).inTransaction = false
  | _ => True

theorem reads_announcing (outside : Bool) (h : e.Untouched)
    (hkeeps : ∀ a ∈ acts, a.KeepsTo forBlocks) (hfits : Along Fits e acts)
    (houtside : outside = true → Along AnnouncesOutside e acts)
    (hrun : e.run acts = .ok (e', j)) :
    Reads (Nesting.announcing outside) forBlocks e' (j.of none) := by
  refine reads_run (Nesting.lawful_announcing outside) h hkeeps hfits
    ((along_of_kept Silent.kept h.silent).and (along_when houtside)) ?_ hrun
  intro e m op s hP hop hs
  refine Recorder.reads_announcing (hP.1 m) (fun hout block hblock => ?_) hop hs
  subst hblock
  exact hP.2 hout

/-- At every line that bounds a block, in the canonical trace as in what a draft holds back, all
calls that were started before have been ended or dropped. So have the transactions, at the lines
that start and end blocks; at those that announce a block as final they have as long as no member
announces one in its own transaction. Of a member that works alone no flush is asked to fit. -/
theorem boundaries_close_units (forBlocks : ι → Bool) (h : e.Untouched)
    (hkeeps : ∀ a ∈ acts, a.KeepsTo forBlocks) (hfits : Along Fits e acts)
    (hrun : e.run acts = .ok (e', j)) :
    (e.canonical.AcceptsAll →
        e'.canonical.content = e.canonical.content ++ (j.of none).bytes) ∧
      ∀ m (before : Trace) x after, e'.lines (j.of none) m = before ++ x :: after →
        x.boundsBlock = true → before.ClosesCalls ∧
          ((x.isFinal = true → Along AnnouncesOutside e acts) → before.ClosesTransactions) := by
  refine ⟨fun haccepts => content_run haccepts hrun, fun m before x after hlines hx => ?_⟩
  have hplace (outside : Bool) (houtside : outside = true → Along AnnouncesOutside e acts) :
      ∃ n, n.Sound ∧ Nesting.readAll ⟨isLent forBlocks m, false, []⟩ before = some n ∧
        (Nesting.announcing outside).accepts n x = true := by
    have hread := reads_announcing outside h hkeeps hfits houtside hrun m
    rw [hlines] at hread
    obtain ⟨n, hbefore, haccepts, -⟩ := Reader.readAll_append_cons.mp hread
    have hbefore : Nesting.readAll ⟨isLent forBlocks m, false, []⟩ before = some n := by
      rw [← Nesting.start_reader]
      exact Reader.readAll_of_guarded hbefore
    exact ⟨n, Nesting.Sound.readAll (fun hin => by cases hin) hbefore, hbefore, haccepts⟩
  constructor
  · obtain ⟨n, -, hbefore, haccepts⟩ := hplace false (fun hfalse => by cases hfalse)
    exact Nesting.closesCalls_of_readAll hbefore (Nesting.calls_of_boundary haccepts hx)
  · intro hfinal
    obtain ⟨n, hsound, hbefore, haccepts⟩ := hplace x.isFinal hfinal
    exact Nesting.closesTransactions_of_readAll hbefore
      (Nesting.inTransaction_of_boundary hsound haccepts hx id)

/-- A block with a flushed transaction is announced as final before it ends, and after it comes a
block that is cancelled inside a call. -/
def bounded : List (Act Bool) :=
  [.perform none (.startBlock (Consumer.plainBlock 7)), startSample false,
   .perform (some false) (.startCall .call), .perform (some false) (.failTransaction "bad nonce"),
   .abandon false, startSample false, .perform (some false) (.failTransaction "bad nonce"),
   .flushTransaction none false (canonical_ne _),
   .perform none (.finalizeBlock (Consumer.plainBlock 7)),
   .perform none (.endBlock (Consumer.plainBlock 7) none),
   .perform none (.startBlock (Consumer.plainBlock 8)),
   .perform none (.startTransaction Consumer.plainTransaction 0 none),
   .perform none (.startCall .call), .perform none (.cancelBlock (Consumer.plainBlock 8) "reorg"),
   .perform none (.startBlock (Consumer.plainBlock 8))]

theorem boundaries_close_units_bounded :
    sample.Untouched ∧ (∀ a ∈ bounded, a.KeepsTo id) ∧ Along Fits sample bounded ∧
      Along AnnouncesOutside sample bounded ∧
      ∃ e' j, ∃ before : Trace, sample.run bounded = .ok (e', j) ∧
        j.of none = before ++ [.blockStart 8] ∧ before.length = 9 ∧
        before.ClosesCalls ∧ before.ClosesTransactions := by
  have hkeeps : ∀ a ∈ bounded, a.KeepsTo id := by
    simp [bounded, startSample, Act.KeepsTo, Operation.isBoundary]
  have hfits : Along Fits sample bounded :=
    ⟨trivial, trivial, trivial, trivial, trivial, trivial, trivial, fun _ => ⟨rfl, rfl, rfl⟩,
      trivial, trivial, trivial, trivial, trivial, trivial, trivial, trivial⟩
  have houtside : Along AnnouncesOutside sample bounded :=
    ⟨trivial, trivial, trivial, trivial, trivial, trivial, trivial, trivial, rfl, trivial,
      trivial, trivial, trivial, trivial, trivial, trivial⟩
  obtain ⟨-, hclosed⟩ := boundaries_close_units id untouched_sample hkeeps hfits rfl
  obtain ⟨hcalls, htransactions⟩ := hclosed none [_, _, _, _, _, _, _, _, _] _ [] rfl rfl
  exact ⟨untouched_sample, hkeeps, hfits, houtside, _, _, [_, _, _, _, _, _, _, _, _], rfl, rfl,
    rfl, hcalls, htransactions fun _ => houtside⟩

/-- A block is announced as final while a transaction in it is open. -/
theorem announced_inside_transaction :
    ∃ s, ∃ before : Trace, (Recorder.fresh true false).run
        [.startBlock (Consumer.plainBlock 7), .startTransaction Consumer.plainTransaction 0 none,
         .finalizeBlock (Consumer.plainBlock 7)] = .ok s ∧
      s.trace = before ++ [.blockFinal 7] ∧ ¬ before.ClosesTransactions := by
  refine ⟨_, [_, _], rfl, rfl, fun hclosed => ?_⟩
  have hfinishes := hclosed [_] _ [] rfl
  cases hfinishes

end Ensemble
end EvmTrace
