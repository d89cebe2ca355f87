import EvmTrace.Proofs.Ensemble

/-!
# Recorders that cannot be told apart

Whether final blocks are to be announced counts only for a recorder that is off, and the capacity of
a buffer counts for no operation. Recorders and drafts that differ in nothing else do the same, up
to the same fault.
-/
namespace EvmTrace

def Recorder.Twins (r q : Recorder) : Prop :=
  ∃ progress, q = { r with progress } ∧ (r.enabled = false → progress = r.progress)

namespace Recorder.Twins

variable {r q : Recorder}

theorem refl (r : Recorder) : r.Twins r := ⟨r.progress, rfl, fun _ => rfl⟩

theorem apply_eq (h : r.Twins q) {α : Type} (f : Recorder → α)
    (hf : ∀ (r : Recorder) (progress : Bool), f { r with progress } = f r) : f q = f r := by
  obtain ⟨progress, rfl, -⟩ := h
  exact hf r progress

theorem enabled (h : r.Twins q) : q.enabled = r.enabled := h.apply_eq _ fun _ _ => rfl

theorem nextLog (h : r.Twins q) : q.nextLog = r.nextLog := h.apply_eq _ fun _ _ => rfl

theorem inTransaction (h : r.Twins q) : q.inTransaction = r.inTransaction :=
  h.apply_eq _ fun _ _ => rfl

theorem calls (h : r.Twins q) : q.calls = r.calls := h.apply_eq _ fun _ _ => rfl

theorem inBlock (h : r.Twins q) : q.inBlock = r.inBlock := h.apply_eq _ fun _ _ => rfl

theorem blockNumber (h : r.Twins q) : q.blockNumber = r.blockNumber := h.apply_eq _ fun _ _ => rfl

theorem eq_of_disabled (h : r.Twins q) (hoff : r.enabled = false) : q = r := by
  obtain ⟨progress, rfl, hprogress⟩ := h
  rw [hprogress hoff]

theorem fresh (enabled progress : Bool) {other : Bool} (h : enabled = false → other = progress) :
    (Recorder.fresh enabled progress).Twins (.fresh enabled other) := ⟨other, rfl, h⟩

theorem leaveBlock (h : r.Twins q) : r.leaveBlock.Twins q.leaveBlock := by
  obtain ⟨progress, rfl, hprogress⟩ := h
  exact ⟨progress, rfl, hprogress⟩

theorem leaveTransaction (h : r.Twins q) : r.leaveTransaction.Twins q.leaveTransaction := by
  obtain ⟨progress, rfl, hprogress⟩ := h
  exact ⟨progress, rfl, hprogress⟩

end Recorder.Twins

structure Fault.Twins (f g : Fault) : Prop where
  violation : g.violation = f.violation
  recorder : f.recorder.Twins g.recorder

theorem Fault.Twins.message {f g : Fault} (h : f.Twins g) : g.message = f.message := by
  obtain ⟨violation, r⟩ := f
  obtain ⟨violation', q⟩ := g
  have hviolation : violation' = violation := h.violation
  obtain ⟨progress, hq, -⟩ : r.Twins q := h.recorder
  rw [hviolation, hq]
  rfl

/-- Both succeed, with results that are related, or both stop with twin faults. -/
def Concur {α β : Type} (R : α → β → Prop) : Except Fault α → Except Fault β → Prop
  | .ok a, .ok b => R a b
  | .error f, .error g => f.Twins g
  | _, _ => False

namespace Concur

variable {α β γ δ : Type} {R : α → β → Prop} {S : γ → δ → Prop}

theorem refl {R : α → α → Prop} (hR : ∀ a, R a a) (x : Except Fault α) : Concur R x x := by
  cases x with
  | error f => exact ⟨rfl, .refl _⟩
  | ok a => exact hR a

@[elab_as_elim]
theorem split {P : Except Fault α → Except Fault β → Prop} {x : Except Fault α}
    {y : Except Fault β} (h : Concur R x y) (error : ∀ f g, f.Twins g → P (.error f) (.error g))
    (ok : ∀ a b, R a b → P (.ok a) (.ok b)) : P x y := by
  cases x with
  | error f =>
    cases y with
    | error g => exact error f g h
    | ok b => exact h.elim
  | ok a =>
    cases y with
    | error g => exact h.elim
    | ok b => exact ok a b h

theorem imp {R' : α → β → Prop} {x : Except Fault α} {y : Except Fault β} (h : Concur R x y)
    (himp : ∀ a b, x = .ok a → y = .ok b → R a b → R' a b) : Concur R' x y := by
  revert himp
  exact h.split (fun _ _ hfaults _ => hfaults) fun a b hab himp => himp a b rfl rfl hab

theorem bind {x : Except Fault α} {y : Except Fault β} {f : α → Except Fault γ}
    {g : β → Except Fault δ} (h : Concur R x y) (hnext : ∀ a b, R a b → Concur S (f a) (g b)) :
    Concur S (x >>= f) (y >>= g) :=
  h.split (fun _ _ hfaults => hfaults) hnext

theorem map_right {R' : α → δ → Prop} {x : Except Fault α} {y : Except Fault β} {g : β → δ}
    (h : Concur R x y) (himp : ∀ a b, R a b → R' a (g b)) : Concur R' x (y.map g) :=
  h.split (fun _ _ hfaults => hfaults) himp

end Concur

/-! ## Operations -/

structure Step.Twins (s t : Step) : Prop where
  output : t.output = s.output
  calls : t.calls = s.calls
  recorder : s.recorder.Twins t.recorder

theorem Step.Twins.trace {s t : Step} (h : s.Twins t) : t.trace = s.trace := by
  rw [Step.trace, h.output, Step.trace]

theorem Step.Twins.notes {s t : Step} (h : s.Twins t) : t.notes = s.notes := by
  rw [Step.notes, h.output, Step.notes]

theorem Step.Twins.andThen {s t : Step} {f g : Recorder → Except Fault Step} (h : s.Twins t)
    (hnext : Concur Step.Twins (f s.recorder) (g t.recorder)) :
    Concur Step.Twins (s.andThen f) (t.andThen g) := by
  refine hnext.bind fun u v huv => ?_
  exact ⟨by rw [h.output, huv.output], by rw [h.calls, huv.calls], huv.recorder⟩

namespace Recorder.Twins

variable {r q : Recorder}

theorem require (h : r.Twins q) {c c' : Bool} (hc : c' = c) (v : Violation) :
    Concur (fun _ _ => True) (r.require c v) (q.require c' v) := by
  subst hc
  cases c' with
  | true => trivial
  | false => exact ⟨rfl, h⟩

theorem requireFree (h : r.Twins q) (v : Violation) :
    Concur (fun _ _ => True) (r.require (!r.inBlock) v) (q.require (!q.inBlock) v) :=
  h.require (by rw [h.inBlock]) v

theorem requireInBlock (h : r.Twins q) :
    Concur (fun _ _ => True) r.requireInBlock q.requireInBlock := h.require h.inBlock _

theorem requireCall (h : r.Twins q) (n : CallNote) :
    Concur (fun _ _ => True) (r.requireCall n) (q.requireCall n) :=
  h.require (by rw [h.calls]) _

theorem callFailed (h : r.Twins q) (gasLeft : UInt64) (reason : String) :
    Concur Step.Twins (r.callFailed gasLeft reason) (q.callFailed gasLeft reason) := by
  refine (h.requireCall .failure).bind fun _ _ _ => ?_
  obtain ⟨progress, rfl, hprogress⟩ := h
  exact ⟨rfl, rfl, progress, rfl, hprogress⟩

theorem callReverted (h : r.Twins q) : Concur Step.Twins r.callReverted q.callReverted := by
  refine (h.requireCall .revert).bind fun _ _ _ => ?_
  obtain ⟨progress, rfl, hprogress⟩ := h
  exact ⟨rfl, rfl, progress, rfl, hprogress⟩

theorem endCall (h : r.Twins q) (gasLeft : UInt64) (returned : Bytes) :
    Concur Step.Twins (r.endCall gasLeft returned) (q.endCall gasLeft returned) := by
  obtain ⟨progress, rfl, hprogress⟩ := h
  unfold Recorder.endCall
  cases hpop : r.calls.pop with
  | error e => exact ⟨rfl, progress, rfl, hprogress⟩
  | ok popped => exact ⟨rfl, rfl, progress, rfl, hprogress⟩

theorem consumeGas (h : r.Twins q) (old amount : UInt64) (reason : GasReason) :
    Concur Step.Twins (r.consumeGas old amount reason) (q.consumeGas old amount reason) := by
  obtain ⟨progress, rfl, hprogress⟩ := h
  unfold Recorder.consumeGas
  split
  · exact ⟨rfl, rfl, progress, rfl, hprogress⟩
  · split
    · exact ⟨rfl, progress, rfl, hprogress⟩
    · exact ⟨rfl, rfl, progress, rfl, hprogress⟩

theorem endFailedCall (h : r.Twins q) (gasLeft : UInt64) (isRevert : Bool) (reason : String) :
    Concur Step.Twins (r.endFailedCall gasLeft isRevert reason)
      (q.endFailedCall gasLeft isRevert reason) := by
  refine (h.callFailed gasLeft reason).bind fun s t hst => ?_
  cases isRevert with
  | true =>
    refine (hst.andThen hst.recorder.callReverted).bind fun u v huv => ?_
    exact huv.andThen (huv.recorder.endCall gasLeft [])
  | false =>
    refine (hst.andThen (hst.recorder.consumeGas ..)).bind fun u v huv => ?_
    exact huv.andThen (huv.recorder.endCall 0 [])

/-- What a recorder that is on does with an operation does not depend on its announcing blocks. -/
theorem record (h : r.Twins q) (op : Operation) :
    Concur Step.Twins (r.record op) (q.record op) := by
  have hguard {c : Bool} {v : Violation} :
      Concur (fun _ _ => True) (r.require c v) (q.require c v) := h.require rfl v
  have hendCall := h.endCall
  have hendFailedCall := h.endFailedCall
  have hconsumeGas := h.consumeGas
  obtain ⟨progress, rfl, hprogress⟩ := h
  -- behind its guards, an operation does the same up to the field that differs
  have hsame {s t : Step} (hoff : s.recorder.enabled = false → progress = s.recorder.progress)
      (heq : t = { s with recorder := { s.recorder with progress } }) : s.Twins t := by
    subst heq
    exact ⟨rfl, rfl, progress, rfl, hoff⟩
  cases op with
  | endCall gasLeft returned => exact hendCall gasLeft returned
  | endFailedCall gasLeft isRevert reason => exact hendFailedCall gasLeft isRevert reason
  | consumeGas old amount reason => exact hconsumeGas old amount reason
  | cancelBlock | sender | failTransaction | callParams | callWithoutCode | callFailed
  | callReverted => exact hguard.bind fun _ _ _ => hsame hprogress rfl
  | startBlock | finalizeBlock | endTransaction =>
    exact hguard.bind fun _ _ _ => hguard.bind fun _ _ _ => hsame hprogress rfl
  | endBlock | startTransaction =>
    exact hguard.bind fun _ _ _ => hguard.bind fun _ _ _ => hguard.bind fun _ _ _ =>
      hsame hprogress rfl
  | refundGas old amount =>
    simp only [Recorder.record, Recorder.refundGas]
    split <;> exact hsame hprogress rfl
  | changeBalance address old new reason =>
    simp only [Recorder.record, Recorder.changeBalance]
    split <;> exact hsame hprogress rfl
  | announce | startCall | changeNonce | changeCode | changeStorage | createAccount | suicide
  | keccak | log => exact hsame hprogress rfl

theorem perform (h : r.Twins q) (op : Operation) :
    Concur Step.Twins (r.perform op) (q.perform op) := by
  cases hon : r.enabled with
  | true =>
    rw [perform_enabled hon, perform_enabled (h.enabled.trans hon)]
    exact h.record op
  | false =>
    rw [h.eq_of_disabled hon]
    exact .refl (fun s => ⟨rfl, rfl, .refl _⟩) _

end Recorder.Twins

/-! ## Drafts -/

structure Draft.Twins (d d' : Draft) : Prop where
  recorder : d.recorder.Twins d'.recorder
  trace : d'.trace = d.trace

namespace Draft.Twins

variable {r q : Recorder} {d d' : Draft}

theorem refl (d : Draft) : d.Twins d := ⟨.refl _, rfl⟩

theorem length (h : d.Twins d') : d'.buffer.length = d.buffer.length := by
  simp only [Buffer.length, buffer, h.trace]

theorem absorb (h : d.Twins d') {s t : Step} (hst : s.Twins t) :
    (d.absorb s).Twins (d'.absorb t) :=
  ⟨hst.recorder, by rw [trace_absorb, trace_absorb, h.trace, hst.trace]⟩

theorem lend (h : d.Twins d') (hr : r.Twins q) :
    Draft.Twins { d with recorder := r.lend d.recorder }
      { d' with recorder := q.lend d'.recorder } := by
  refine ⟨?_, h.trace⟩
  obtain ⟨progress, hq, hprogress⟩ := h.recorder
  rw [Recorder.lend, Recorder.lend, hr.blockNumber, hr.nextLog, hq]
  exact ⟨progress, rfl, hprogress⟩

theorem startSpeculative (h : d.Twins d') (hr : r.Twins q) (tx : Transaction) (index : UInt64)
    (baseFee : Option Word) :
    Concur (fun x y => x.1.Twins y.1 ∧ y.2 = x.2) (r.startSpeculative d tx index baseFee)
      (q.startSpeculative d' tx index baseFee) := by
  have hguard : Concur (fun _ _ => True) (if r.enabled then r.requireInBlock else .ok ())
      (if q.enabled then q.requireInBlock else .ok ()) := by
    rw [hr.enabled]
    split
    · exact hr.requireInBlock
    · trivial
  have henter : Concur Draft.Twins (if d.recorder.enabled then d.enterBlock r else .ok d)
      (if d'.recorder.enabled then d'.enterBlock q else .ok d') := by
    rw [h.recorder.enabled]
    split
    · exact (h.recorder.requireFree .unflushedTransaction).bind fun _ _ _ => h.lend hr
    · exact h
  rw [Recorder.startSpeculative_eq_bind, Recorder.startSpeculative_eq_bind]
  refine hguard.bind fun _ _ _ => henter.bind fun d₁ d₁' h₁ => ?_
  exact (h₁.recorder.perform _).bind fun s t hst => ⟨h₁.absorb hst, hst.notes⟩

theorem receive (h : d.Twins d') (hr : r.Twins q) : (r.receive d).Twins (q.receive d') := by
  refine ⟨?_, rfl, ?_⟩
  · simp only [Recorder.receive, Recorder.handOver, h.length, h.trace]
  · obtain ⟨progress, rfl, hprogress⟩ := hr
    simp only [Recorder.receive, Recorder.handOver, h.recorder.inBlock, h.recorder.nextLog]
    split
    · exact ⟨progress, rfl, hprogress⟩
    · exact ⟨progress, rfl, hprogress⟩

theorem flushTransaction (h : d.Twins d') (hr : r.Twins q) :
    Concur (fun x y => x.1.Twins y.1 ∧ x.2.Twins y.2) (r.flushTransaction d)
      (q.flushTransaction d') := by
  cases hon : r.enabled with
  | false =>
    rw [Recorder.flushTransaction_disabled hon,
      Recorder.flushTransaction_disabled (hr.enabled.trans hon)]
    exact ⟨⟨rfl, rfl, hr⟩, h.recorder.leaveBlock, h.trace⟩
  | true =>
    rw [Recorder.flushTransaction_enabled hon,
      Recorder.flushTransaction_enabled (hr.enabled.trans hon)]
    have hended := h.recorder.require
      (show (!d'.recorder.inTransaction) = !d.recorder.inTransaction by
        rw [h.recorder.inTransaction])
      .openTransaction
    have hsame := h.recorder.require
      (show (!d'.recorder.inBlock || d'.recorder.blockNumber == q.blockNumber) =
          (!d.recorder.inBlock || d.recorder.blockNumber == r.blockNumber) by
        rw [h.recorder.inBlock, h.recorder.blockNumber, hr.blockNumber])
      .otherBlock
    refine hr.requireInBlock.bind fun _ _ _ => hended.bind fun _ _ _ => hsame.bind fun _ _ _ => ?_
    exact ⟨h.receive hr, h.recorder.leaveBlock, rfl⟩

theorem flushBlock (h : d.Twins d') (hr : r.Twins q) :
    Concur (fun x y => x.1.Twins y.1 ∧ x.2.Twins y.2) (r.flushBlock d) (q.flushBlock d') := by
  cases hon : r.enabled with
  | false =>
    rw [Recorder.flushBlock_disabled hon, Recorder.flushBlock_disabled (hr.enabled.trans hon)]
    exact ⟨⟨rfl, rfl, hr⟩, h⟩
  | true =>
    have hleft := h.recorder.requireFree .openBlock
    unfold Recorder.flushBlock
    rw [if_neg (not_not.mpr hon), if_neg (not_not.mpr (hr.enabled.trans hon))]
    refine hleft.bind fun _ _ _ => ⟨⟨?_, rfl, hr⟩, h.recorder, rfl⟩
    rw [h.length, h.trace]

theorem abandon (h : d.Twins d') : d.abandon.1.Twins d'.abandon.1 :=
  ⟨h.recorder.leaveTransaction.leaveBlock, rfl⟩

end Draft.Twins
end EvmTrace
