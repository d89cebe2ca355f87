import EvmTrace.Proofs.Emission
import EvmTrace.Proofs.Lending
import EvmTrace.Proofs.Placement

/-!
# Silent members

A member that is off announces final blocks if it is told to, and does nothing else. So its lines
are those of the lines of a member that is on which announce final blocks.
-/
namespace EvmTrace

def Event.isFinal : Event → Bool
  | .blockFinal _ => true
  | _ => false

/-- The lines that announce final blocks. -/
def Operation.finals : Operation → Trace
  | .finalizeBlock block => [.blockFinal block.number]
  | _ => []

namespace Recorder

variable {r q : Recorder} {s : Step} {op : Operation} {f : Fault}

/-! ## One operation -/

theorem filter_record (h : r.record op = .ok s) : s.trace.filter Event.isFinal = op.finals := by
  rw [trace_record h]
  cases op with
  | endFailedCall gasLeft isRevert reason =>
    cases isRevert with
    | true => rfl
    | false => by_cases hgas : gasLeft = 0 <;> simp [emission, hgas] <;> rfl
  | consumeGas | refundGas | changeBalance =>
    simp only [emission]
    split <;> rfl
  | _ => rfl

theorem trace_ignore_eq (r : Recorder) (op : Operation) :
    (r.ignore op).trace = if r.progress then op.finals else [] := by
  cases op with
  | finalizeBlock block =>
    simp only [ignore]
    split <;> rfl
  | _ => exact (ite_self _).symm

/-- New unless it is on. -/
def IsSilent (r : Recorder) : Prop := r.enabled = false → ∃ progress, r = .fresh false progress

end Recorder

/-! ## Who meets a fault -/

/-- Any fault there is has been met by a recorder of this kind. -/
def FaultsIn (P : Recorder → Prop) {α : Type} (x : Except Fault α) : Prop :=
  ∀ f, x = .error f → P f.recorder

namespace FaultsIn

variable {P : Recorder → Prop} {α β : Type} {r : Recorder}

theorem ok (a : α) : FaultsIn P (.ok a) := by
  intro f h
  cases h

theorem bind {x : Except Fault α} {g : α → Except Fault β} (hx : FaultsIn P x)
    (hg : ∀ a, x = .ok a → FaultsIn P (g a)) : FaultsIn P (x >>= g) := by
  intro f h
  rcases bind_eq_error.mp h with hfirst | ⟨a, ha, hrest⟩
  · exact hx f hfirst
  · exact hg a ha f hrest

theorem require (hP : P r) (c : Bool) (v : Violation) : FaultsIn P (r.require c v) := by
  intro f h
  rw [(Recorder.require_eq_error.mp h).2]
  exact hP

theorem require_of_true {c : Bool} (hc : c = true) (v : Violation) :
    FaultsIn P (r.require c v) := by
  subst hc
  exact ok ()

theorem endFailedCall (hP : P r) (gasLeft : UInt64) (isRevert : Bool) (reason : String) :
    FaultsIn P (r.endFailedCall gasLeft isRevert reason) := by
  cases hcalls : r.calls.calls with
  | nil =>
    -- what follows is reached with an open call only
    refine bind ((require hP _ _).bind fun _ _ => ok _) fun s hs => ?_
    exact absurd hcalls (Recorder.callFailed_eq_ok.mp hs).1
  | cons call outer =>
    rw [Recorder.endFailedCall_of_open hcalls]
    exact ok _

theorem record (hP : P r) (op : Operation) : FaultsIn P (r.record op) := by
  have hone {α : Type} {c : Bool} {v : Violation} {a : α} :
      FaultsIn P (r.require c v >>= fun _ => .ok a) := (require hP _ _).bind fun _ _ => ok _
  have htwo {α : Type} {c c' : Bool} {v v' : Violation} {a : α} :
      FaultsIn P (r.require c v >>= fun _ => r.require c' v' >>= fun _ => .ok a) :=
    (require hP _ _).bind fun _ _ => hone
  have hthree {α : Type} {c c' c'' : Bool} {v v' v'' : Violation} {a : α} :
      FaultsIn P (r.require c v >>= fun _ => r.require c' v' >>= fun _ =>
        r.require c'' v'' >>= fun _ => .ok a) :=
    (require hP _ _).bind fun _ _ => htwo
  cases op with
  | startBlock | finalizeBlock | endTransaction => exact htwo
  | endBlock | startTransaction => exact hthree
  | cancelBlock | sender | failTransaction | callParams | callWithoutCode | callFailed
  | callReverted => exact hone
  | endCall gasLeft returned =>
    simp only [Recorder.record, Recorder.endCall]
    cases r.calls.pop with
    | error e => exact fun f h => Except.error.inj h ▸ hP
    | ok popped => exact ok _
  | endFailedCall gasLeft isRevert reason => exact endFailedCall hP gasLeft isRevert reason
  | consumeGas old amount reason =>
    simp only [Recorder.record, Recorder.consumeGas]
    split
    · exact ok _
    · split
      · exact fun f h => Except.error.inj h ▸ hP
      · exact ok _
  | announce | startCall | refundGas | changeBalance | changeNonce | changeCode | changeStorage
  | createAccount | suicide | keccak | log => exact ok _

theorem perform (r : Recorder) (op : Operation) :
    FaultsIn (·.enabled = true) (r.perform op) := by
  cases hon : r.enabled with
  | false =>
    rw [Recorder.perform_disabled r op hon]
    exact ok _
  | true =>
    rw [Recorder.perform_enabled hon]
    exact record hon op

theorem startSpeculative (r : Recorder) (d : Draft) (tx : Transaction) (index : UInt64)
    (baseFee : Option Word) :
    FaultsIn (·.enabled = true) (r.startSpeculative d tx index baseFee) := by
  rw [Recorder.startSpeculative_eq_bind]
  refine bind ?_ fun _ _ => bind ?_ fun d' _ => (perform _ _).bind fun _ _ => ok _
  · split
    · next hon => exact require hon _ _
    · exact ok _
  · split
    · next hon => exact (require hon _ _).bind fun _ _ => ok _
    · exact ok _

theorem flushTransaction (r : Recorder) {d : Draft} (hd : d.recorder.IsSilent) :
    FaultsIn (·.enabled = true) (r.flushTransaction d) := by
  cases hon : r.enabled with
  | false =>
    rw [Recorder.flushTransaction_disabled hon]
    exact ok _
  | true =>
    rw [Recorder.flushTransaction_enabled hon]
    refine (require hon _ _).bind fun _ _ => ?_
    cases hdraft : d.recorder.enabled with
    | true => exact (require hdraft _ _).bind fun _ _ => (require hdraft _ _).bind fun _ _ => ok _
    | false =>
      -- a draft that is off is in no transaction and no block
      obtain ⟨progress, hfresh⟩ := hd hdraft
      rw [hfresh]
      exact (require_of_true rfl _).bind fun _ _ => (require_of_true rfl _).bind fun _ _ => ok _

theorem flushBlock (r : Recorder) {d : Draft} (hd : d.recorder.IsSilent) :
    FaultsIn (·.enabled = true) (r.flushBlock d) := by
  cases hon : r.enabled with
  | false =>
    rw [Recorder.flushBlock_disabled hon]
    exact ok _
  | true =>
    unfold Recorder.flushBlock
    rw [if_neg (not_not.mpr hon)]
    cases hdraft : d.recorder.enabled with
    | true => exact (require hdraft _ _).bind fun _ _ => ok _
    | false =>
      obtain ⟨progress, hfresh⟩ := hd hdraft
      rw [hfresh]
      exact (require_of_true rfl _).bind fun _ _ => ok _

end FaultsIn

namespace Ensemble

variable {ι : Type} [DecidableEq ι] {e e₂ e' : Ensemble ι} {m : Option ι} {a : Act ι}
  {acts : List (Act ι)} {entry : Entry ι} {j : Journal ι} {progress : Bool}

/-- The lines of a member that announce final blocks. -/
def Act.finals (m : Option ι) : Act ι → Trace
  | .perform m' op => if m' = m then op.finals else []
  | _ => []

def Act.isFlush : Act ι → Bool
  | .flushTransaction .. | .flushBlock .. => true
  | _ => false

/-- Taken by the member alone, or a flush into it. -/
def Act.IsTakenBy (m : Option ι) : Act ι → Prop
  | .perform m' _ | .flushTransaction m' _ _ | .flushBlock m' _ _ => m' = m
  | .abandon k => some k = m
  | .start .. => False

/-! ## A member that is off -/

omit [DecidableEq ι] in
theorem ne_of_off (hoff : e.recorder m = .fresh false progress) {i : Option ι}
    (hon : (e.recorder i).enabled = true) : m ≠ i := by
  rintro rfl
  rw [hoff] at hon
  cases hon

theorem recorder_silent (hoff : e.recorder m = .fresh false progress)
    (h : e.act a = .ok (e', entry)) : e'.recorder m = e.recorder m := by
  have hkeeps {i : Option ι} {r : Recorder} (hr : i = m → r = e.recorder m) :
      Function.update e.recorder i r m = e.recorder m := by
    by_cases hi : m = i
    · subst hi
      rw [Function.update_self, hr rfl]
    · rw [Function.update_of_ne hi]
  -- a new recorder is in no block and no transaction that it could leave
  have hleft {k : ι} (leave : Recorder → Recorder)
      (hfresh : leave (.fresh false progress) = .fresh false progress) (hk : some k = m) :
      leave (e.drafts k).recorder = e.recorder m := by
    subst hk
    rw [show (e.drafts k).recorder = _ from hoff, hoff, hfresh]
  cases a with
  | perform i op =>
    obtain ⟨s, hs, rfl, -⟩ := act_perform_ok h
    rw [recorder_take]
    refine hkeeps fun hi => ?_
    subst hi
    rw [hoff, Recorder.perform_disabled _ op rfl] at hs
    obtain rfl := Except.ok.inj hs
    rw [Recorder.recorder_ignore, hoff]
  | start lender k other tx index baseFee =>
    obtain ⟨-, s, rfl, -, ⟨-, rfl⟩ | ⟨hon, -, -, -, rfl⟩⟩ := act_start_ok h
    · rw [take_idle]
    · rw [recorder_take, Function.update_of_ne (ne_of_off hoff hon)]
  | flushTransaction receiver k other =>
    rcases act_flushTransaction_ok h with ⟨-, rfl, -⟩ | ⟨hon, -, -, -, rfl, -⟩
    · rw [recorder_put]
      exact hkeeps (hleft Recorder.leaveBlock rfl)
    · rw [recorder_take, Function.update_of_ne (ne_of_off hoff hon), recorder_put]
      exact hkeeps (hleft Recorder.leaveBlock rfl)
  | flushBlock receiver k other =>
    rcases act_flushBlock_ok h with ⟨-, rfl, -⟩ | ⟨hon, -, rfl, -⟩
    · rfl
    · rw [recorder_take, Function.update_of_ne (ne_of_off hoff hon), recorder_emptied]
  | abandon k =>
    obtain ⟨rfl, -⟩ := Prod.mk.inj (Except.ok.inj h)
    rw [recorder_put]
    exact hkeeps (hleft (fun r => r.leaveTransaction.leaveBlock) rfl)

theorem lines_silent (hoff : e.recorder m = .fresh false progress)
    (h : e.act a = .ok (e', entry)) : entry.of m = if progress then a.finals m else [] := by
  have hother {i : Option ι} {lines : Trace} (hi : m ≠ i) : Entry.of ⟨i, lines⟩ m = [] :=
    if_neg hi.symm
  have hnone (hempty : entry.of m = []) (hfinals : a.finals m = []) :
      entry.of m = if progress then a.finals m else [] := by
    rw [hempty, hfinals, ite_self]
  cases a with
  | perform i op =>
    obtain ⟨s, hs, -, rfl⟩ := act_perform_ok h
    by_cases hi : m = i
    · subst hi
      rw [hoff, Recorder.perform_disabled _ op rfl] at hs
      obtain rfl := Except.ok.inj hs
      rw [Entry.of, if_pos rfl, Recorder.trace_ignore_eq, Act.finals, if_pos rfl]
      rfl
    · exact hnone (hother hi) (if_neg (Ne.symm hi))
  | start lender k other tx index baseFee =>
    obtain ⟨-, s, -, rfl, ⟨-, rfl⟩ | ⟨hon, -, -, -, rfl⟩⟩ := act_start_ok h
    · exact hnone (Entry.of_nil _ _) rfl
    · exact hnone (hother (ne_of_off hoff hon)) rfl
  | flushTransaction receiver k other =>
    rcases act_flushTransaction_ok h with ⟨-, -, rfl⟩ | ⟨hon, -, -, -, -, rfl⟩
    · exact hnone (Entry.of_nil _ _) rfl
    · exact hnone (hother (ne_of_off hoff hon)) rfl
  | flushBlock receiver k other =>
    rcases act_flushBlock_ok h with ⟨-, -, rfl⟩ | ⟨hon, -, -, rfl⟩
    · exact hnone (Entry.of_nil _ _) rfl
    · exact hnone (hother (ne_of_off hoff hon)) rfl
  | abandon k =>
    obtain ⟨-, rfl⟩ := Prod.mk.inj (Except.ok.inj h)
    exact hnone (Entry.of_nil _ _) rfl

theorem silent_run (hoff : e.recorder m = .fresh false progress)
    (hrun : e.run acts = .ok (e', j)) :
    e'.recorder m = e.recorder m ∧
      j.of m = if progress then acts.flatMap (Act.finals m) else [] := by
  induction acts generalizing e j with
  | nil =>
    obtain ⟨rfl, rfl⟩ := Prod.mk.inj (Except.ok.inj hrun)
    exact ⟨rfl, (ite_self _).symm⟩
  | cons a acts ih =>
    obtain ⟨e₁, entry, rest, ha, hrest, rfl⟩ := run_cons.mp hrun
    have hsame := recorder_silent hoff ha
    obtain ⟨hsame', hlater⟩ := ih (hsame.trans hoff) hrest
    refine ⟨hsame'.trans hsame, ?_⟩
    rw [Journal.of_cons, lines_silent hoff ha, hlater]
    cases progress <;> rfl

/-- A member that is off can be asked for anything. -/
theorem silent_accepts (hoff : e.recorder m = .fresh false progress) (ha : a.IsTakenBy m) :
    ∃ done, e.act a = .ok done := by
  have hdisabled : (e.recorder m).enabled = false := congrArg Recorder.enabled hoff
  cases a with
  | perform m' op =>
    obtain rfl : m' = m := ha
    exact ⟨_, bind_eq_ok.mpr ⟨_, Recorder.perform_disabled _ op hdisabled, rfl⟩⟩
  | start lender k other tx index baseFee => exact ha.elim
  | flushTransaction receiver k other =>
    obtain rfl : receiver = m := ha
    exact ⟨_, bind_eq_ok.mpr ⟨_, Recorder.flushTransaction_disabled hdisabled _, rfl⟩⟩
  | flushBlock receiver k other =>
    obtain rfl : receiver = m := ha
    exact ⟨_, bind_eq_ok.mpr ⟨_, Recorder.flushBlock_disabled hdisabled _, rfl⟩⟩
  | abandon k => exact ⟨_, rfl⟩

omit [DecidableEq ι] in
theorem callsOf_startCall (hoff : e.recorder m = .fresh false progress) (type : CallType) :
    e.callsOf (.perform m (.startCall type)) = [0] := by
  rw [callsOf, hoff]
  rfl

/-- All members that are off are new. -/
def Silent (e : Ensemble ι) : Prop := ∀ m, (e.recorder m).IsSilent

theorem Silent.act (h : e.Silent) (a : Act ι) : FaultsIn (·.enabled = true) (e.act a) := by
  cases a with
  | perform m op => exact (FaultsIn.perform _ op).bind fun _ _ => .ok _
  | start lender k other tx index baseFee =>
    exact (FaultsIn.startSpeculative _ _ tx index baseFee).bind fun _ _ => .ok _
  | flushTransaction receiver k other =>
    exact (FaultsIn.flushTransaction _ (h (some k))).bind fun _ _ => .ok _
  | flushBlock receiver k other =>
    exact (FaultsIn.flushBlock _ (h (some k))).bind fun _ _ => .ok _
  | abandon k => exact .ok _

theorem Silent.kept (h : e.Silent) (hact : e.act a = .ok (e', entry)) : e'.Silent := by
  intro m hoff
  rw [enabled_act hact m] at hoff
  obtain ⟨progress, hfresh⟩ := h m hoff
  exact ⟨progress, (recorder_silent hfresh hact).trans hfresh⟩

theorem Silent.run (h : e.Silent) (acts : List (Act ι)) :
    FaultsIn (·.enabled = true) (e.run acts) := by
  induction acts generalizing e with
  | nil => exact .ok _
  | cons a acts ih => exact (h.act a).bind fun _ hdone => (ih (h.kept hdone)).bind fun _ _ => .ok _

omit [DecidableEq ι] in
theorem Untouched.silent (h : e.Untouched) : e.Silent := by
  intro m hoff
  cases m with
  | none =>
    obtain ⟨progress, hfresh⟩ := h.canonical
    rw [show e.recorder none = _ from hfresh] at hoff
    cases hoff
  | some k =>
    obtain ⟨enabled, progress, hfresh, -⟩ := h.drafts k
    rw [show e.recorder (some k) = _ from hfresh] at hoff ⊢
    obtain rfl : enabled = false := hoff
    exact ⟨progress, rfl⟩

end Ensemble

/-! ## The same work beside a member that is on or off -/

namespace Recorder

variable {r q : Recorder} {s : Step} {op : Operation}

/-- Agreeing in all that can be a reason to stop. -/
structure SameGuards (r q : Recorder) : Prop extends Agrees r q where
  inBlock : q.inBlock = r.inBlock

theorem SameGuards.refl (r : Recorder) : r.SameGuards r := ⟨.refl r, rfl⟩

theorem StaysInBlock.inBlock (h : r.StaysInBlock s) : s.recorder.inBlock = r.inBlock := by
  rw [Recorder.inBlock, h.block, Recorder.inBlock]

theorem SameGuards.block (h : r.SameGuards q) : q.block = none ↔ r.block = none := by
  have hinside : q.block ≠ none ↔ r.block ≠ none := by
    rw [← inBlock_iff, ← inBlock_iff, h.inBlock]
  exact not_iff_not.mp hinside

theorem SameGuards.record (h : r.SameGuards q) (hs : r.record op = .ok s) :
    ∃ t, q.record op = .ok t ∧ s.recorder.SameGuards t.recorder := by
  by_cases htransactional : op.isTransactional = true
  · obtain ⟨t, ht, hsame⟩ := record_transactional htransactional h.toAgrees hs
    refine ⟨t, ht, hsame.agrees, ?_⟩
    rw [hsame.right.inBlock, hsame.left.inBlock, h.inBlock]
  · have hinside (hblock : r.block ≠ none) : q.block ≠ none := h.block.not.mpr hblock
    have hcalls (hempty : r.calls.calls = []) : q.calls.calls = [] := by rw [h.calls, hempty]
    have houtside (hended : r.inTransaction = false) : q.inTransaction = false := by
      rw [h.inTransaction, hended]
    cases op with
    | announce node protocol chain =>
      obtain rfl := Except.ok.inj hs
      exact ⟨_, rfl, h⟩
    | startBlock block =>
      obtain ⟨hblock, hempty, rfl⟩ := startBlock_eq_ok.mp hs
      exact ⟨_, startBlock_eq_ok.mpr ⟨h.block.mpr hblock, hcalls hempty, rfl⟩,
        ⟨h.enabled, h.inTransaction, h.calls⟩, rfl⟩
    | finalizeBlock block =>
      obtain ⟨hblock, hempty, rfl⟩ := finalizeBlock_eq_ok.mp hs
      exact ⟨_, finalizeBlock_eq_ok.mpr ⟨hinside hblock, hcalls hempty, rfl⟩, h⟩
    | endBlock block totalDifficulty =>
      obtain ⟨hblock, hended, hempty, rfl⟩ := endBlock_eq_ok.mp hs
      exact ⟨_, endBlock_eq_ok.mpr ⟨hinside hblock, houtside hended, hcalls hempty, rfl⟩,
        ⟨h.enabled, h.inTransaction, h.calls⟩, rfl⟩
    | cancelBlock block reason =>
      obtain ⟨hblock, rfl⟩ := cancelBlock_eq_ok.mp hs
      exact ⟨_, cancelBlock_eq_ok.mpr ⟨hinside hblock, rfl⟩, ⟨h.enabled, rfl, rfl⟩, rfl⟩
    | startTransaction tx index baseFee =>
      obtain ⟨hblock, hended, hempty, rfl⟩ := startTransaction_eq_ok.mp hs
      exact ⟨_, startTransaction_eq_ok.mpr ⟨hinside hblock, houtside hended, hcalls hempty, rfl⟩,
        ⟨h.enabled, rfl, rfl⟩, h.inBlock⟩
    | _ => exact absurd rfl htransactional

theorem SameGuards.perform (h : r.SameGuards q) (hs : r.perform op = .ok s) :
    ∃ t, q.perform op = .ok t ∧ s.recorder.SameGuards t.recorder := by
  cases hon : r.enabled with
  | true =>
    rw [perform_enabled hon] at hs
    rw [perform_enabled (h.enabled.trans hon)]
    exact h.record hs
  | false =>
    rw [perform_disabled r op hon] at hs
    obtain rfl := Except.ok.inj hs
    refine ⟨_, perform_disabled q op (h.enabled.trans hon), ?_⟩
    rwa [recorder_ignore, recorder_ignore]

theorem startSpeculative_of_disabled {d : Draft} (hoff : d.recorder.enabled = false)
    (hlender : r.enabled = true → r.inBlock = true) (tx : Transaction) (index : UInt64)
    (baseFee : Option Word) : r.startSpeculative d tx index baseFee = .ok (d, []) := by
  have hguard : (if r.enabled then r.requireInBlock else .ok ()) = .ok () := by
    split
    · next hon => exact require_eq_ok.mpr (hlender hon)
    · rfl
  rw [startSpeculative_eq_bind, hguard, ok_bind, if_neg (by simp [hoff]), ok_bind,
    perform_disabled _ _ hoff, ok_bind]
  have hidle : d.recorder.ignore (.startTransaction tx index baseFee) = .idle d.recorder := rfl
  rw [hidle, Draft.absorb_idle]
  rfl

theorem SameGuards.startSpeculative {lender lender' : Recorder} {d d₂ d' : Draft}
    {tx : Transaction} {index : UInt64} {baseFee : Option Word} {notes : List Diagnostic}
    (h : d.recorder.SameGuards d₂.recorder)
    (hlender : lender'.enabled = true → lender'.inBlock = true)
    (hstart : lender.startSpeculative d tx index baseFee = .ok (d', notes)) :
    ∃ d₂' notes', lender'.startSpeculative d₂ tx index baseFee = .ok (d₂', notes') ∧
      d'.recorder.SameGuards d₂'.recorder := by
  obtain ⟨-, ⟨hoff, rfl⟩ | ⟨hon, hfree, hended, hempty, rfl⟩⟩ := startSpeculative_ok hstart
  · exact ⟨_, _, startSpeculative_of_disabled (h.enabled.trans hoff) hlender .., h⟩
  · have hfree' : d₂.recorder.block = none := h.block.mpr hfree
    have hempty' : d₂.recorder.calls.calls = [] := by rw [h.calls, hempty]
    refine ⟨_, _, startSpeculative_eq hlender (h.enabled.trans hon) hfree'
      (h.inTransaction.trans hended) hempty' ⟨tx, index, baseFee, [], .abandoned⟩, ?_⟩
    exact ⟨⟨h.enabled, rfl, rfl⟩, rfl⟩

end Recorder

namespace Ensemble

variable {ι : Type} [DecidableEq ι] {e e₂ e' : Ensemble ι} {m : Option ι} {a : Act ι}
  {acts : List (Act ι)} {entry : Entry ι} {j : Journal ι}

/-- The same members in the same state, but for one that is off. -/
structure Shadows (m : Option ι) (e e₂ : Ensemble ι) : Prop where
  off : e₂.recorder m = .fresh false true
  others : ∀ m', m' ≠ m → (e.recorder m').SameGuards (e₂.recorder m')

theorem shadows_withRecorder (e : Ensemble ι) (m : Option ι) :
    Shadows m e (e.withRecorder m (.fresh false true)) where
  off := by rw [recorder_withRecorder, Function.update_self]
  others m' hm := by
    rw [recorder_withRecorder, Function.update_of_ne hm]
    exact .refl _

theorem finals_act (hon : (e.recorder m).enabled = true) (hflush : a.isFlush = false)
    (h : e.act a = .ok (e', entry)) : (entry.of m).filter Event.isFinal = a.finals m := by
  cases a with
  | perform m' op =>
    obtain ⟨s, hs, rfl, rfl⟩ := act_perform_ok h
    by_cases hm : m' = m
    · subst hm
      rw [Recorder.perform_enabled hon] at hs
      rw [Entry.of, if_pos rfl, Act.finals, if_pos rfl]
      exact Recorder.filter_record hs
    · rw [Entry.of, if_neg hm, Act.finals, if_neg hm]
      rfl
  | start lender k other tx index baseFee =>
    obtain ⟨-, s, rfl, rfl, ⟨-, rfl⟩ | ⟨-, -, -, -, rfl⟩⟩ := act_start_ok h
    · rw [Step.trace_idle, Entry.of_nil]
      rfl
    · rw [Step.trace_noted, Entry.of]
      split <;> rfl
  | flushTransaction => cases hflush
  | flushBlock => cases hflush
  | abandon k =>
    obtain ⟨rfl, rfl⟩ := Prod.mk.inj (Except.ok.inj h)
    rw [Entry.of_nil]
    rfl

theorem Shadows.update {i : Option ι} {r q : Recorder} {e₂' : Ensemble ι} (h : Shadows m e e₂)
    (he : e'.recorder = Function.update e.recorder i r)
    (he₂ : e₂'.recorder = Function.update e₂.recorder i q) (hsame : i ≠ m → r.SameGuards q)
    (hoff : e₂'.recorder m = .fresh false true) : Shadows m e' e₂' where
  off := hoff
  others m' hm := by
    rw [he, he₂]
    by_cases hi : m' = i
    · subst hi
      rw [Function.update_self, Function.update_self]
      exact hsame hm
    · rw [Function.update_of_ne hi, Function.update_of_ne hi]
      exact h.others m' hm

/-- No other member notices that one is off. -/
theorem Shadows.act (h : Shadows m e e₂) (hflush : a.isFlush = false)
    (hact : e.act a = .ok (e', entry)) :
    ∃ e₂' entry₂, e₂.act a = .ok (e₂', entry₂) ∧ Shadows m e' e₂' := by
  -- the member that is off stays as it is, so that only the others have to be looked at
  have hoff {e₂' : Ensemble ι} {entry₂ : Entry ι} (hact₂ : e₂.act a = .ok (e₂', entry₂)) :
      e₂'.recorder m = .fresh false true := (recorder_silent h.off hact₂).trans h.off
  have hdisabled : (e₂.recorder m).enabled = false := congrArg Recorder.enabled h.off
  cases a with
  | perform m' op =>
    obtain ⟨s, hs, rfl, -⟩ := act_perform_ok hact
    have hperform : ∃ t, (e₂.recorder m').perform op = .ok t ∧
        (m' ≠ m → s.recorder.SameGuards t.recorder) := by
      by_cases hm : m' = m
      · subst hm
        exact ⟨_, Recorder.perform_disabled _ op hdisabled, fun hne => absurd rfl hne⟩
      · obtain ⟨t, ht, hsame⟩ := (h.others m' hm).perform hs
        exact ⟨t, ht, fun _ => hsame⟩
    obtain ⟨t, ht, hsame⟩ := hperform
    have hact₂ : e₂.act (.perform m' op) = .ok _ := bind_eq_ok.mpr ⟨t, ht, rfl⟩
    exact ⟨_, _, hact₂, h.update (recorder_take ..) (recorder_take ..) hsame (hoff hact₂)⟩
  | start lender k other tx index baseFee =>
    obtain ⟨⟨d, notes⟩, hd, hpair⟩ := bind_eq_ok.mp hact
    obtain ⟨rfl, -⟩ := Prod.mk.inj (pure_eq_ok.mp hpair)
    have hlender (hon : (e₂.recorder lender).enabled = true) :
        (e₂.recorder lender).inBlock = true := by
      have hm : lender ≠ m := by
        rintro rfl
        cases hdisabled.symm.trans hon
      have hguards := h.others lender hm
      rw [hguards.inBlock]
      exact Recorder.inBlock_iff.mpr ((Recorder.startSpeculative_ok hd).1 (hguards.enabled ▸ hon))
    have hstart : ∃ d₂ notes₂,
        (e₂.recorder lender).startSpeculative (e₂.drafts k) tx index baseFee =
          .ok (d₂, notes₂) ∧ (some k ≠ m → d.recorder.SameGuards d₂.recorder) := by
      by_cases hk : some k = m
      · subst hk
        exact ⟨_, _, Recorder.startSpeculative_of_disabled hdisabled hlender tx index baseFee,
          fun hne => absurd rfl hne⟩
      · obtain ⟨d₂, notes₂, hd₂, hsame⟩ := (h.others (some k) hk).startSpeculative hlender hd
        exact ⟨d₂, notes₂, hd₂, fun _ => hsame⟩
    obtain ⟨d₂, notes₂, hd₂, hsame⟩ := hstart
    have hact₂ : e₂.act (.start lender k other tx index baseFee) = .ok _ :=
      bind_eq_ok.mpr ⟨(d₂, notes₂), hd₂, rfl⟩
    exact ⟨_, _, hact₂, h.update (recorder_put ..) (recorder_put ..) hsame (hoff hact₂)⟩
  | flushTransaction => cases hflush
  | flushBlock => cases hflush
  | abandon k =>
    obtain ⟨rfl, -⟩ := Prod.mk.inj (Except.ok.inj hact)
    refine ⟨_, _, rfl, h.update (recorder_put ..) (recorder_put ..) (fun hk => ?_) (hoff rfl)⟩
    exact ⟨⟨(h.others (some k) hk).enabled, rfl, rfl⟩, rfl⟩

theorem Shadows.run (h : Shadows m e e₂) (hon : (e.recorder m).enabled = true)
    (hflush : ∀ a ∈ acts, a.isFlush = false) (hrun : e.run acts = .ok (e', j)) :
    (∃ e₂' j₂, e₂.run acts = .ok (e₂', j₂)) ∧
      (j.of m).filter Event.isFinal = acts.flatMap (Act.finals m) := by
  induction acts generalizing e e₂ j with
  | nil =>
    obtain ⟨rfl, rfl⟩ := Prod.mk.inj (Except.ok.inj hrun)
    exact ⟨⟨_, _, rfl⟩, rfl⟩
  | cons a acts ih =>
    obtain ⟨e₁, entry, rest, ha, hrest, rfl⟩ := run_cons.mp hrun
    obtain ⟨hfirst, hlater⟩ := List.forall_mem_cons.mp hflush
    obtain ⟨e₂₁, entry₂, ha₂, h₁⟩ := h.act hfirst ha
    obtain ⟨⟨e₂', j₂, hrun₂⟩, hfinals⟩ := ih h₁ ((enabled_act ha m).trans hon) hlater hrest
    refine ⟨⟨e₂', _, run_cons.mpr ⟨_, _, j₂, ha₂, hrun₂, rfl⟩⟩, ?_⟩
    rw [Journal.of_cons, List.filter_append, finals_act hon hfirst ha, hfinals,
      List.flatMap_cons]

/-- Whatever is asked of the members, one that is off meets no fault, stays as it is, numbers its
calls 0 and announces final blocks at most. Had a member been off that is on, and nothing been
flushed, it would have announced the final blocks that it did announce, and nothing else. -/
theorem progress_announces_final_blocks (h : e.Silent) :
    (∀ acts f, e.run acts = .error f → f.recorder.enabled = true) ∧
      (∀ m progress acts e' j, e.recorder m = .fresh false progress →
        e.run acts = .ok (e', j) →
          e'.recorder m = e.recorder m ∧
            (j.of m = if progress then acts.flatMap (Act.finals m) else []) ∧
            (∀ a, a.IsTakenBy m → ∃ done, e'.act a = .ok done) ∧
            ∀ type, e'.callsOf (.perform m (.startCall type)) = [0]) ∧
      ∀ m acts e' j, (e.recorder m).enabled = true → (∀ a ∈ acts, a.isFlush = false) →
        e.run acts = .ok (e', j) →
          ∃ e₂ j₂, (e.withRecorder m (.fresh false true)).run acts = .ok (e₂, j₂) ∧
            j₂.of m = (j.of m).filter Event.isFinal := by
  refine ⟨fun acts f => h.run acts f, ?_, ?_⟩
  · intro m progress acts e' j hoff hrun
    obtain ⟨hsame, hlines⟩ := silent_run hoff hrun
    have hoff' := hsame.trans hoff
    exact ⟨hsame, hlines, fun a => silent_accepts hoff', callsOf_startCall hoff'⟩
  · intro m acts e' j hon hflush hrun
    have hshadows := shadows_withRecorder e m
    obtain ⟨⟨e₂, j₂, hrun₂⟩, hfinals⟩ := hshadows.run hon hflush hrun
    exact ⟨e₂, j₂, hrun₂, (silent_run hshadows.off hrun₂).2.trans hfinals.symm⟩

/-- One of the drafts is off and announces final blocks. -/
def progressSample : Ensemble Bool := sample.withRecorder (some true) (.fresh false true)

theorem silent_progressSample : progressSample.Silent := by
  intro m hoff
  cases m with
  | none => cases hoff
  | some k =>
    cases k with
    | false => cases hoff
    | true => exact ⟨true, rfl⟩

/-- Final blocks are announced by the canonical tracer and by the draft that is off, and the draft
is told of a transaction that it does not record. -/
def finalized : List (Act Bool) :=
  [.perform none (.startBlock (Consumer.plainBlock 7)), startSample true, startSample false,
    .perform none (.finalizeBlock (Consumer.plainBlock 1)),
    .perform (some true) (.finalizeBlock (Consumer.plainBlock 2)),
    .perform (some true) (.startCall .call),
    .perform none (.endBlock (Consumer.plainBlock 7) none)]

theorem progress_announces_final_blocks_sample :
    progressSample.Silent ∧ progressSample.recorder (some true) = .fresh false true ∧
      (progressSample.recorder none).enabled = true ∧ (∀ a ∈ finalized, a.isFlush = false) ∧
      ∃ e' j, progressSample.run finalized = .ok (e', j) ∧
        j.of (some true) = [.blockFinal 2] ∧
        e'.recorder (some true) = progressSample.recorder (some true) ∧
        ∃ e₂ j₂, (progressSample.withRecorder none (.fresh false true)).run finalized =
            .ok (e₂, j₂) ∧ j₂.of none = (j.of none).filter Event.isFinal := by
  have hflush : ∀ a ∈ finalized, a.isFlush = false := by decide
  obtain ⟨-, hsilent, hprojects⟩ := progress_announces_final_blocks silent_progressSample
  obtain ⟨hsame, hlines, -⟩ := hsilent (some true) true finalized _ _ rfl rfl
  exact ⟨silent_progressSample, rfl, rfl, hflush, _, _, rfl, hlines, hsame,
    hprojects none finalized _ _ rfl hflush rfl⟩

end Ensemble
end EvmTrace
