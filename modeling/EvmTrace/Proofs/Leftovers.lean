import EvmTrace.Proofs.Consumer
import EvmTrace.Proofs.Renewal
import EvmTrace.Proofs.Renumbering

/-!
# What a block leaves to the next

When a block ends, its recorder keeps one thing: how many calls were started since numbers began
again last. The calls of later blocks are numbered on from there, up to the next moment when numbers
begin again. In everything else the recorder does as a new one.
-/
namespace EvmTrace

/-! ## What a consumer sees of other numbers -/

namespace Consumer

variable {c d : Consumer} {t : Trace} {e : Event}

theorem opened_after (haccepts : c.accepts e = true) :
    (c.after e).calls.opened = e.count c.calls.opened := by
  cases e <;>
    simp_all [accepts, after, Event.count, Event.restarts, Event.started?, start, CallStack.empty]

/-- How many calls have been started can be counted. -/
theorem opened_of_readAll (h : c.readAll t = some d) :
    d.calls.opened = t.foldl (fun n e => e.count n) c.calls.opened := by
  induction t generalizing c with
  | nil =>
    obtain rfl := Option.some.inj h
    rfl
  | cons e t ih =>
    obtain ⟨haccepts, hrest⟩ := Reader.readAll_cons_eq_some.mp h
    rw [List.foldl_cons, ih hrest, reader_after, opened_after haccepts]

/-- While no call is open, only a line that starts one bears a number. -/
theorem renumber_of_idle (hcalls : c.calls.calls = []) (haccepts : c.accepts e = true)
    (hstart : e.started? = none) (base : Nat) : e.renumber (raised base) = e := by
  cases e <;>
    simp_all [accepts, Event.started?, Event.renumber, CallStack.active, raised]

theorem idle_after (hcalls : c.calls.calls = []) (haccepts : c.accepts e = true)
    (hstart : e.started? = none) : (c.after e).calls.calls = [] := by
  cases e <;> simp_all [accepts, after, Event.started?, start, CallStack.empty]

/-- It shows how many other calls there were if and only if a call starts before numbers begin
again. -/
theorem raise_eq_iff (hread : c.readAll t = some d) (hcalls : c.calls.calls = []) (m n : Nat) :
    t.raise m = t.raise n ↔ m = n ∨ t.startsLate = true := by
  -- up to where numbers begin again, the first call that starts shows how many were before it
  induction t generalizing c with
  | nil => simp [Trace.raise, Trace.startsLate]
  | cons e t ih =>
    obtain ⟨haccepts, hrest⟩ := Reader.readAll_cons_eq_some.mp hread
    cases hrestarts : e.restarts with
    | true => simp [Trace.raise, Trace.startsLate, hrestarts]
    | false =>
      cases hstart : e.started? with
      | none =>
        have hlater := ih hrest (idle_after hcalls haccepts hstart)
        simpa [Trace.raise, Trace.startsLate, hrestarts, hstart,
          renumber_of_idle hcalls haccepts hstart] using hlater
      | some call =>
        obtain ⟨type, rfl⟩ : ∃ type, e = .callStart type call := by
          cases e <;> simp_all [Event.started?]
        have hcall : call = c.calls.opened + 1 := by simpa [accepts] using haccepts
        subst hcall
        constructor
        · intro hraise
          have hnumber : m + c.calls.opened + 1 = n + c.calls.opened + 1 := by
            simpa [Trace.raise, Event.restarts, Event.renumber, raised] using
              congrArg (·.head?) hraise
          exact .inl (by omega)
        · rintro (rfl | hlate)
          · rfl
          · simp [Trace.startsLate, Event.restarts, Event.started?] at hlate

end Consumer

namespace Recorder

variable {r : Recorder} {s : Step}

/-- A new recorder counts the calls that its lines tell of. -/
theorem opened_eq_leftover {progress : Bool} {ops : List Operation}
    (h : (Recorder.fresh true progress).run ops = .ok s) :
    s.recorder.calls.opened = s.trace.leftover := by
  obtain ⟨d, hd⟩ := Consumer.follows_run (c := .start) h
  rw [hd.recorder]
  exact Consumer.opened_of_readAll hd.read

/-- Once a block has ended, a recorder is a new one behind the calls that it counts. -/
theorem recorder_endBlock {block : Block} {totalDifficulty : Option Word} (hon : r.enabled = true)
    (h : r.perform (.endBlock block totalDifficulty) = .ok s) : ∃ base progress,
      s.recorder = (Recorder.fresh true false).raise base progress := by
  rw [perform_enabled hon] at h
  obtain ⟨-, htransaction, hcalls, rfl⟩ := endBlock_eq_ok.mp h
  obtain ⟨enabled, progress, block, nextLog, inTransaction, opened, calls⟩ := r
  simp only at hon htransaction hcalls
  subst hon htransaction hcalls
  exact ⟨opened, progress, rfl⟩

theorem Twins.raise (hon : r.enabled = true) (base : Nat) (progress progress' : Bool) :
    (r.raise base progress).Twins (r.raise base progress') :=
  ⟨progress', rfl, fun hoff => by cases hoff.symm.trans hon⟩

/-- Recorders behind different numbers of calls answer the same if and only if no call starts before
numbers begin again. -/
theorem answer_eq_iff (m n : Nat) (progress progress' : Bool) (ops : List Operation) :
    ((Recorder.fresh true false).raise n progress').answer ops =
        ((Recorder.fresh true false).raise m progress).answer ops ↔
      n = m ∨ ∀ a, (Recorder.fresh true false).answer ops = .ok a → a.1.startsLate = true := by
  rw [answer_raise rfl, answer_raise rfl]
  cases hrun : (Recorder.fresh true false).run ops with
  | error f => simp [answer, hrun, Except.map]
  | ok s =>
    obtain ⟨d, hd⟩ := Consumer.follows_run (c := .start) hrun
    have hiff := Consumer.raise_eq_iff hd.read rfl n m
    constructor
    · intro hanswer
      simp only [answer, hrun, Except.map, Except.ok.injEq, raiseAnswer, Prod.mk.injEq] at hanswer
      refine (hiff.mp hanswer.1).imp_right fun hlate a ha => ?_
      simp only [answer, hrun, Except.ok.injEq] at ha
      rw [← ha]
      exact hlate
    · intro hsame
      have hlines : s.trace.raise n = s.trace.raise m :=
        hiff.mpr (hsame.imp_right fun hlate => hlate _ (by rw [answer, hrun]))
      simp only [answer, hrun, Except.map, raiseAnswer, hlines]

end Recorder

/-! ## Ensembles -/

namespace Ensemble

variable {ι κ : Type} [DecidableEq ι] [DecidableEq κ] {e x : Ensemble ι} {e' x' : Ensemble κ}
  {acts : List (Act ι)} {acts' : List (Act κ)} {m : Option ι} {m' : Option κ}
  {block block' : Block} {totalDifficulty totalDifficulty' : Option Word} {j : Journal ι}
  {j' : Journal κ}

/-- Where a member is that has ended a block. -/
theorem recorder_ended (hon : (e.recorder m).enabled = true)
    (hrun : e.run (acts ++ [.perform m (.endBlock block totalDifficulty)]) = .ok (x, j)) :
    x.recorder m = (Recorder.fresh true false).raise (x.recorder m).calls.opened
      (x.recorder m).progress := by
  obtain ⟨e₁, j₁, entry, hacts, hend, -⟩ := run_concat.mp hrun
  obtain ⟨s, hs, rfl, -⟩ := act_perform_ok hend
  obtain ⟨base, progress, hbase⟩ :=
    Recorder.recorder_endBlock ((enabled_run hacts m).trans hon) hs
  rw [recorder_take, Function.update_self, hbase]
  rfl

/-- Two members that have just ended a block, whatever was before, differ in how many calls they
count. Each answers all that may be done next as a new recorder does, up to the numbers of calls
that start before numbers begin again. So they answer the same if and only if they count the same or
no call starts before. If they count the same, the one can take the place of the other. All this is
for all that may be done next, so it holds up to each operation, the one that is stopped included.
-/
theorem later_blocks_renumber_calls (hon : (e.recorder m).enabled = true)
    (hon' : (e'.recorder m').enabled = true)
    (hrun : e.run (acts ++ [.perform m (.endBlock block totalDifficulty)]) = .ok (x, j))
    (hrun' : e'.run (acts' ++ [.perform m' (.endBlock block' totalDifficulty')]) = .ok (x', j')) :
    let r := x.recorder m
    let r' := x'.recorder m'
    let plain := (Recorder.fresh true false).answer
    (∀ ops, r.answer ops = (plain ops).map (Recorder.raiseAnswer r.calls.opened) ∧
        r'.answer ops = (plain ops).map (Recorder.raiseAnswer r'.calls.opened)) ∧
      (∀ ops, r'.answer ops = r.answer ops ↔
        r'.calls.opened = r.calls.opened ∨ ∀ a, plain ops = .ok a → a.1.startsLate = true) ∧
      (r'.calls.opened = r.calls.opened → x.BehavesLike (x.withRecorder m r')) := by
  intro r r' plain
  have hr : r = _ := recorder_ended hon hrun
  have hr' : r' = _ := recorder_ended hon' hrun'
  refine ⟨fun ops => ⟨?_, ?_⟩, fun ops => ?_, fun hsame => ?_⟩
  · rw [hr, Recorder.answer_raise rfl]
    rfl
  · rw [hr', Recorder.answer_raise rfl]
    rfl
  · have hiff := Recorder.answer_eq_iff r.calls.opened r'.calls.opened r.progress r'.progress ops
    rwa [← hr, ← hr'] at hiff
  · have htwins : r.Twins r' := by
      rw [hr, hr', hsame]
      exact .raise rfl ..
    exact (mirrors_withRecorder htwins).behavesLike

/-- A block, with a call that belongs to no transaction. -/
def callInBlock : List (Act Bool) :=
  [.perform none (.startBlock (Consumer.plainBlock 1)), .perform none (.startCall .call),
   .perform none (.endCall 0 [])]

def emptyBlock : List (Act Bool) := [.perform none (.startBlock (Consumer.plainBlock 1))]

/-- A call in a transaction. -/
def callInTransaction : List Operation :=
  [.startBlock (Consumer.plainBlock 2), .startTransaction Consumer.plainTransaction 0 none,
   .startCall .call]

theorem later_blocks_renumber_calls_callInTransaction :
    (sample.recorder none).enabled = true ∧ ∃ x j x' j',
      sample.run (emptyBlock ++ [.perform none (.endBlock (Consumer.plainBlock 1) none)]) =
        .ok (x, j) ∧
      sample.run (callInBlock ++ [.perform none (.endBlock (Consumer.plainBlock 1) none)]) =
        .ok (x', j') ∧
      (x.recorder none).calls.opened = 0 ∧ (x'.recorder none).calls.opened = 1 ∧
      (x'.recorder none).answer callInTransaction = (x.recorder none).answer callInTransaction := by
  have hon : (sample.recorder none).enabled = true := rfl
  have hrun : sample.run (emptyBlock ++ [.perform none (.endBlock (Consumer.plainBlock 1) none)]) =
    .ok (_, _) := rfl
  have hrun' :
      sample.run (callInBlock ++ [.perform none (.endBlock (Consumer.plainBlock 1) none)]) =
    .ok (_, _) := rfl
  obtain ⟨-, hiff, -⟩ := later_blocks_renumber_calls hon hon hrun hrun'
  refine ⟨hon, _, _, _, _, hrun, hrun', rfl, rfl, (hiff _).mpr (.inr fun a ha => ?_)⟩
  obtain rfl := Except.ok.inj ha
  rfl

/-- A call of a block goes on with the numbers of the block before. -/
theorem call_numbers_outlive_block :
    ∃ s s', (Recorder.fresh true false).run
        [.startBlock (Consumer.plainBlock 1), .endBlock (Consumer.plainBlock 1) none] = .ok s ∧
      (Recorder.fresh true false).run
        [.startBlock (Consumer.plainBlock 1), .startCall .call, .endCall 0 [],
         .endBlock (Consumer.plainBlock 1) none] = .ok s' ∧
      s.recorder.answer [.startBlock (Consumer.plainBlock 2), .startCall .call] =
        .ok ([.blockStart 2, .callStart .call 1], [1]) ∧
      s'.recorder.answer [.startBlock (Consumer.plainBlock 2), .startCall .call] =
        .ok ([.blockStart 2, .callStart .call 2], [2]) :=
  ⟨_, _, rfl, rfl, rfl, rfl⟩

end Ensemble
end EvmTrace
