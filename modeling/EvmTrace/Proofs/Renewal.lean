import EvmTrace.Proofs.Hosting
import EvmTrace.Proofs.Placement

/-!
# Starting afresh

Cancelling a block and abandoning a draft forget all that was under way, whatever it was: the block,
the transaction, the calls, and every number that was counted. From then on the recorder cannot be
told from a new one.
-/
namespace EvmTrace

theorem Recorder.leave_eq_fresh (r : Recorder) :
    r.leaveTransaction.leaveBlock = .fresh r.enabled r.progress := rfl

namespace Ensemble

variable {ι : Type} [DecidableEq ι]

/-- A new recorder in the place of a member's own. -/
def renew (e : Ensemble ι) (m : Option ι) (progress : Bool) : Ensemble ι :=
  e.withRecorder m (.fresh true progress)

/-- All that can be seen of a member from outside. -/
structure Report where
  enabled : Bool
  inBlock : Bool
  inTransaction : Bool
  depth : Nat
  content : Bytes

def report (e : Ensemble ι) (m : Option ι) : Report :=
  let r := e.recorder m
  ⟨r.enabled, r.inBlock, r.inTransaction, r.depth, (e.tracer m).content⟩

/-- Whatever is done next, the same lines are put out, the same calls are started and the same is
seen of all members, or both stop with the same message. -/
def BehavesLike (e e' : Ensemble ι) : Prop :=
  ∀ acts, e'.started acts = e.started acts ∧
    match e.run acts, e'.run acts with
    | .ok (x, j), .ok (y, j') => j' = j ∧ y.report = x.report
    | .error f, .error g => g.message = f.message
    | _, _ => False

variable {e e' : Ensemble ι}

omit [DecidableEq ι] in
theorem Mirrors.refl (e : Ensemble ι) : Mirrors (.same ι) e e where
  recorders m := by
    rw [Placement.member_same]
    exact .refl _
  traces _ := rfl
  canonical _ := ⟨.refl _, rfl⟩

omit [DecidableEq ι] in
theorem Mirrors.report (h : Mirrors (.same ι) e e') : e'.report = e.report := by
  funext m
  have hrecorder := h.recorders m
  rw [Placement.member_same] at hrecorder
  have hcontent : (e'.tracer m).content = (e.tracer m).content := by
    cases m with
    | none => exact (h.canonical rfl).1.content
    | some k => exact congrArg Trace.bytes (h.traces k)
  simp only [Ensemble.report, Recorder.depth, hrecorder.enabled, hrecorder.inBlock,
    hrecorder.inTransaction, hrecorder.calls, hcontent]

theorem Mirrors.behavesLike (h : Mirrors (.same ι) e e') : e.BehavesLike e' := by
  intro acts
  have hacts : acts.map (Act.placed (.same ι)) = acts :=
    (List.map_congr_left fun a _ => a.placed_same).trans (List.map_id' acts)
  obtain ⟨hrun, hstarted⟩ := h.run acts
  rw [hacts] at hrun hstarted
  refine ⟨hstarted, hrun.split (fun f g hfaults => hfaults.message) ?_⟩
  intro x y hxy
  refine ⟨hxy.2.trans ?_, hxy.1.report⟩
  exact (List.map_congr_left fun entry _ => entry.placed_same).trans (List.map_id' x.2)

theorem mirrors_put {k : ι} {d : Draft} (h : (e.drafts k).Twins d) :
    Mirrors (.same ι) e (e.put k d) := by
  have hput := (Mirrors.refl e).put k h
  rwa [put_drafts] at hput

/-- A member may be replaced by its twin. -/
theorem mirrors_withRecorder {m : Option ι} {q : Recorder} (h : (e.recorder m).Twins q) :
    Mirrors (.same ι) e (e.withRecorder m q) := by
  cases m with
  | some k => exact mirrors_put ⟨h, rfl⟩
  | none =>
    have hcanonical : e.canonical.Twins (e.canonical.withRecorder q) := by
      cases hc : e.canonical with
      | direct r w =>
        simp only [recorder, hc] at h
        exact .direct h w
      | draft d =>
        simp only [recorder, hc] at h
        exact .draft ⟨h, rfl⟩
    refine ⟨fun m => ?_, fun _ => rfl, fun _ => ⟨hcanonical, rfl⟩⟩
    rw [Placement.member_same, recorder_withRecorder]
    cases m with
    | some k => exact .refl _
    | none => exact h

/-- A recorder that is as new has a new one as its twin. -/
theorem mirrors_renew {m : Option ι} {progress : Bool}
    (h : e.recorder m = .fresh true progress) (progress' : Bool) :
    Mirrors (.same ι) e (e.renew m progress') := by
  apply mirrors_withRecorder
  rw [h]
  exact .fresh true progress fun hoff => by cases hoff

theorem act_cancel {m : Option ι} (hon : (e.recorder m).enabled = true)
    (hblock : (e.recorder m).inBlock = true) (block : Block) (reason : String) :
    ∃ e₁ entry, e.act (.perform m (.cancelBlock block reason)) = .ok (e₁, entry) ∧
      e₁.recorder m = .fresh true (e.recorder m).progress := by
  have hcancel : (e.recorder m).cancelBlock block reason = .ok _ :=
    Recorder.cancelBlock_eq_ok.mpr ⟨Recorder.inBlock_iff.mp hblock, rfl⟩
  have hperform : (e.recorder m).perform (.cancelBlock block reason) = .ok _ :=
    (Recorder.perform_enabled hon _).trans hcancel
  refine ⟨_, _, bind_eq_ok.mpr ⟨_, hperform, rfl⟩, ?_⟩
  rw [recorder_take, Function.update_self, Step.recorder_noted, Recorder.leave_eq_fresh, hon]

/-- Whatever a recorder is in the middle of, once its block is cancelled it does as a new recorder
would in its place, and once a draft is abandoned, be it on or off, it does as a new draft would. -/
theorem exits_restore_fresh_recorder (e : Ensemble ι) :
    (∀ m block reason, (e.recorder m).enabled = true → (e.recorder m).inBlock = true →
      ∃ e₁ entry, e.act (.perform m (.cancelBlock block reason)) = .ok (e₁, entry) ∧
        ∀ progress, e₁.BehavesLike (e₁.renew m progress)) ∧
      ∀ k, ∃ e₁ entry, e.act (.abandon k) = .ok (e₁, entry) ∧
        ∀ b, let r := e.recorder (some k)
          e₁.BehavesLike (e₁.put k (.onBuffer b r.enabled r.progress)) := by
  constructor
  · intro m block reason hon hblock
    obtain ⟨e₁, entry, hact, hfresh⟩ := act_cancel hon hblock block reason
    exact ⟨e₁, entry, hact, fun progress => (mirrors_renew hfresh progress).behavesLike⟩
  · intro k
    refine ⟨_, _, rfl, fun b => Mirrors.behavesLike (mirrors_put ?_)⟩
    have hdraft : (e.put k (e.drafts k).abandon.1).drafts k = (e.drafts k).abandon.1 := by
      simp [put]
    rw [hdraft]
    exact ⟨.refl _, rfl⟩

/-- In the middle of two calls of a transaction, with three logs behind it. -/
def inTheMiddle : Ensemble Bool :=
  { sample with
    canonical := .direct ⟨true, true, some ⟨some 7⟩, 3, true, ⟨2, [2, 1]⟩⟩ ⟨.accepting, ""⟩ }

theorem exits_restore_fresh_recorder_inTheMiddle :
    ((inTheMiddle.recorder none).enabled = true ∧ (inTheMiddle.recorder none).inBlock = true) ∧
      ∃ e₁ entry,
        inTheMiddle.act (.perform none (.cancelBlock (Consumer.plainBlock 7) "reorg")) =
          .ok (e₁, entry) ∧ ∀ progress, e₁.BehavesLike (e₁.renew none progress) :=
  ⟨⟨rfl, rfl⟩, (exits_restore_fresh_recorder inTheMiddle).1 none _ _ rfl rfl⟩

end Ensemble
end EvmTrace
