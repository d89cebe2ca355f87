import EvmTrace.Proofs.Operations

/-!
# What operations depend on

Inside a transaction a recorder goes by its transaction, its calls and the number of its next log.
Two recorders that agree on these put out the same events, whatever blocks they are in.
-/
namespace EvmTrace

/-- Changes of the state and logs, which can be recorded inside and outside transactions. -/
def Operation.isChange : Operation → Bool
  | .consumeGas .. | .refundGas .. | .changeBalance .. | .changeNonce .. | .changeCode ..
  | .changeStorage .. | .createAccount _ | .suicide .. | .keccak .. | .log _ => true
  | _ => false

/-- All that can be recorded from the start of a transaction on. -/
def Operation.isTransactional : Operation → Bool
  | .announce .. | .startBlock _ | .finalizeBlock _ | .endBlock .. | .cancelBlock ..
  | .startTransaction .. => false
  | _ => true

namespace Recorder

variable {r q : Recorder} {s : Step} {op : Operation}

/-- What two steps on different recorders have in common. -/
structure SameChange (r q : Recorder) (s t : Step) : Prop where
  left : s.recorder = { r with nextLog := s.recorder.nextLog }
  right : t.recorder = { q with nextLog := t.recorder.nextLog }
  calls : s.calls = [] ∧ t.calls = []
  same : q.activeCall = r.activeCall → q.nextLog = r.nextLog →
    t.trace = s.trace ∧ t.recorder.nextLog = s.recorder.nextLog

theorem sameChange_idle (r q : Recorder) : SameChange r q (.idle r) (.idle q) :=
  ⟨rfl, rfl, ⟨rfl, rfl⟩, fun _ hlog => ⟨rfl, hlog⟩⟩

theorem sameChange_line (r q : Recorder) (event : Nat → Event) :
    SameChange r q (.line r (event r.activeCall)) (.line q (event q.activeCall)) :=
  ⟨rfl, rfl, ⟨rfl, rfl⟩, fun hcall hlog => ⟨by simp [hcall], hlog⟩⟩

theorem sameChange_noted (r q : Recorder) (d : Diagnostic) (event : Nat → Event) :
    SameChange r q (.noted r d (event r.activeCall)) (.noted q d (event q.activeCall)) :=
  ⟨rfl, rfl, ⟨rfl, rfl⟩, fun hcall hlog => ⟨by simp [hcall], hlog⟩⟩

/-- A change that one recorder takes is taken by every other. -/
theorem record_change (hop : op.isChange = true) (h : r.record op = .ok s) (q : Recorder) :
    ∃ t, q.record op = .ok t ∧ SameChange r q s t := by
  cases op with
  | consumeGas old amount reason =>
    rcases consumeGas_eq_ok.mp h with ⟨hskip, rfl⟩ | ⟨hreason, hamount, hgas, rfl⟩
    · exact ⟨_, consumeGas_eq_ok.mpr (.inl ⟨hskip, rfl⟩), sameChange_idle r q⟩
    · exact ⟨_, consumeGas_eq_ok.mpr (.inr ⟨hreason, hamount, hgas, rfl⟩),
        sameChange_noted r q _ (.gasChange · old (old - amount) reason)⟩
  | refundGas old amount =>
    obtain rfl := Except.ok.inj h
    refine ⟨_, rfl, ?_⟩
    unfold refundGas
    split
    · exact sameChange_idle r q
    · exact sameChange_line r q (.gasChange · old (saturatingAdd old amount) .refundAfterExecution)
  | changeBalance address old new reason =>
    obtain rfl := Except.ok.inj h
    refine ⟨_, rfl, ?_⟩
    unfold changeBalance
    split
    · exact sameChange_idle r q
    · exact sameChange_noted r q _ (.balanceChange · address old new reason)
  | changeNonce address old new =>
    obtain rfl := Except.ok.inj h
    exact ⟨_, rfl, sameChange_line r q (.nonceChange · address old new)⟩
  | changeCode address oldHash old newHash new =>
    obtain rfl := Except.ok.inj h
    exact ⟨_, rfl, sameChange_line r q (.codeChange · address oldHash old newHash new)⟩
  | changeStorage address key old new =>
    obtain rfl := Except.ok.inj h
    exact ⟨_, rfl, sameChange_line r q (.storageChange · address key old new)⟩
  | createAccount address =>
    obtain rfl := Except.ok.inj h
    exact ⟨_, rfl, sameChange_line r q (.newAccount · address)⟩
  | suicide address suicided balance =>
    obtain rfl := Except.ok.inj h
    exact ⟨_, rfl, sameChange_line r q (.suicide · address suicided balance)⟩
  | keccak hash preimage =>
    obtain rfl := Except.ok.inj h
    exact ⟨_, rfl, sameChange_noted r q _ (.keccak · hash preimage)⟩
  | log l =>
    obtain rfl := Except.ok.inj h
    refine ⟨_, rfl, ⟨rfl, rfl, ⟨rfl, rfl⟩, fun hcall hlog => ?_⟩⟩
    simp [log, Step.line, Step.trace, Output.trace, hcall, hlog]
  | _ => cases hop

/-- Being in the same transaction and the same calls. -/
structure Agrees (r q : Recorder) : Prop where
  enabled : q.enabled = r.enabled
  inTransaction : q.inTransaction = r.inTransaction
  calls : q.calls = r.calls

theorem Agrees.activeCall (h : r.Agrees q) : q.activeCall = r.activeCall := by
  simp [Recorder.activeCall, h.calls]

/-- A step that leaves the block alone. -/
def StaysInBlock (r : Recorder) (s : Step) : Prop :=
  ∃ n i c, s.recorder = { r with nextLog := n, inTransaction := i, calls := c }

/-- What the steps of two recorders that agree have in common. -/
structure SameStep (r q : Recorder) (s t : Step) : Prop where
  left : r.StaysInBlock s
  right : q.StaysInBlock t
  agrees : s.recorder.Agrees t.recorder
  calls : t.calls = s.calls
  same : q.nextLog = r.nextLog →
    t.trace = s.trace ∧ t.recorder.nextLog = s.recorder.nextLog

theorem SameChange.sameStep {t : Step} (h : SameChange r q s t) (hq : r.Agrees q) :
    SameStep r q s t where
  left := ⟨_, r.inTransaction, r.calls, h.left⟩
  right := ⟨_, q.inTransaction, q.calls, h.right⟩
  agrees := by
    rw [h.left, h.right]
    exact ⟨hq.enabled, hq.inTransaction, hq.calls⟩
  calls := by rw [h.calls.1, h.calls.2]
  same := h.same hq.activeCall

/-- Steps that tell of the open calls and do not touch the transaction. -/
theorem sameStep_line (hq : r.Agrees q) (event : Nat → Event) :
    SameStep r q (.line r (event r.activeCall)) (.line q (event q.activeCall)) :=
  (sameChange_line r q event).sameStep hq

theorem sameStep_leaveTransaction {output : List Output} (hq : r.Agrees q) :
    SameStep r q ⟨r.leaveTransaction, output, []⟩ ⟨q.leaveTransaction, output, []⟩ where
  left := ⟨_, _, _, rfl⟩
  right := ⟨_, _, _, rfl⟩
  agrees := ⟨hq.enabled, rfl, rfl⟩
  calls := rfl
  same hlog := ⟨rfl, hlog⟩

theorem sameStep_calls {output : List Output} {started : List Nat} (hq : r.Agrees q)
    (calls : CallStack) :
    SameStep r q ⟨{ r with calls }, output, started⟩ ⟨{ q with calls }, output, started⟩ where
  left := ⟨_, _, _, rfl⟩
  right := ⟨_, _, _, rfl⟩
  agrees := ⟨hq.enabled, hq.inTransaction, rfl⟩
  calls := rfl
  same hlog := ⟨rfl, hlog⟩

theorem output_failedCall (r q : Recorder) (call : Nat) (outer : List Nat) (gasLeft : UInt64)
    (isRevert : Bool) (reason : String) :
    (q.failedCall call outer gasLeft isRevert reason).output =
      (r.failedCall call outer gasLeft isRevert reason).output := by
  unfold failedCall
  cases isRevert with
  | true => rfl
  | false => by_cases hgas : gasLeft = 0 <;> simp [hgas] <;> rfl

theorem failedCall_eq (r : Recorder) (call : Nat) (outer : List Nat) (gasLeft : UInt64)
    (isRevert : Bool) (reason : String) :
    r.failedCall call outer gasLeft isRevert reason =
      ⟨{ r with calls := { r.calls with calls := outer } },
        (r.failedCall call outer gasLeft isRevert reason).output, []⟩ := by
  unfold failedCall
  cases isRevert with
  | true => rfl
  | false => by_cases hgas : gasLeft = 0 <;> simp [hgas] <;> rfl

/-- Inside a transaction, what one recorder takes is taken by every other that agrees with it. -/
theorem record_transactional (hop : op.isTransactional = true) (hq : r.Agrees q)
    (h : r.record op = .ok s) : ∃ t, q.record op = .ok t ∧ SameStep r q s t := by
  by_cases hchange : op.isChange = true
  · obtain ⟨t, ht, hsame⟩ := record_change hchange h q
    exact ⟨t, ht, hsame.sameStep hq⟩
  · cases op with
    | sender address =>
      obtain ⟨hinside, rfl⟩ := sender_eq_ok.mp h
      exact ⟨_, sender_eq_ok.mpr ⟨hq.inTransaction.trans hinside, rfl⟩,
        sameStep_line hq fun _ => .sender address⟩
    | failTransaction reason =>
      obtain ⟨hinside, rfl⟩ := failTransaction_eq_ok.mp h
      exact ⟨_, failTransaction_eq_ok.mpr ⟨hq.inTransaction.trans hinside, rfl⟩,
        sameStep_leaveTransaction hq⟩
    | endTransaction receipt =>
      obtain ⟨hinside, hcalls, rfl⟩ := endTransaction_eq_ok.mp h
      refine ⟨_, endTransaction_eq_ok.mpr ⟨hq.inTransaction.trans hinside, ?_, rfl⟩,
        sameStep_leaveTransaction hq⟩
      rw [hq.calls, hcalls]
    | startCall type =>
      obtain rfl := Except.ok.inj h
      refine ⟨_, rfl, ?_⟩
      unfold startCall
      rw [hq.calls]
      exact sameStep_calls hq _
    | callParams type caller target value gas input =>
      obtain ⟨hcalls, rfl⟩ := callParams_eq_ok.mp h
      exact ⟨_, callParams_eq_ok.mpr ⟨hq.calls ▸ hcalls, rfl⟩,
        sameStep_line hq (.callParams type · caller target value gas input)⟩
    | callWithoutCode =>
      obtain ⟨hcalls, rfl⟩ := callWithoutCode_eq_ok.mp h
      exact ⟨_, callWithoutCode_eq_ok.mpr ⟨hq.calls ▸ hcalls, rfl⟩,
        sameStep_line hq .callWithoutCode⟩
    | callFailed gasLeft reason =>
      obtain ⟨hcalls, rfl⟩ := callFailed_eq_ok.mp h
      exact ⟨_, callFailed_eq_ok.mpr ⟨hq.calls ▸ hcalls, rfl⟩,
        sameStep_line hq (.callFailure · gasLeft reason)⟩
    | callReverted =>
      obtain ⟨hcalls, rfl⟩ := callReverted_eq_ok.mp h
      exact ⟨_, callReverted_eq_ok.mpr ⟨hq.calls ▸ hcalls, rfl⟩, sameStep_line hq .callRevert⟩
    | endCall gasLeft returned =>
      obtain ⟨call, outer, hcalls, rfl⟩ := endCall_eq_ok.mp h
      refine ⟨_, endCall_eq_ok.mpr ⟨call, outer, by rw [hq.calls, hcalls], rfl⟩, ?_⟩
      rw [hq.calls]
      exact sameStep_calls hq _
    | endFailedCall gasLeft isRevert reason =>
      obtain ⟨call, outer, hcalls, rfl⟩ := endFailedCall_eq_ok.mp h
      refine ⟨_, endFailedCall_eq_ok.mpr ⟨call, outer, by rw [hq.calls, hcalls], rfl⟩, ?_⟩
      rw [failedCall_eq r, failedCall_eq q, output_failedCall r q, hq.calls]
      exact sameStep_calls hq _
    | _ => simp_all [Operation.isTransactional, Operation.isChange]

theorem StaysInBlock.followedBy {t : Step} (hs : r.StaysInBlock s)
    (ht : s.recorder.StaysInBlock t) : r.StaysInBlock (s.followedBy t) := by
  obtain ⟨n, i, c, hs⟩ := hs
  obtain ⟨n', i', c', ht⟩ := ht
  refine ⟨n', i', c', ?_⟩
  rw [Step.recorder_followedBy, ht, hs]

theorem StaysInBlock.enabled (h : r.StaysInBlock s) : s.recorder.enabled = r.enabled := by
  obtain ⟨n, i, c, h⟩ := h
  rw [h]

theorem SameStep.followedBy {s' t t' : Step} (h : SameStep r q s t)
    (h' : SameStep s.recorder t.recorder s' t') :
    SameStep r q (s.followedBy s') (t.followedBy t') where
  left := h.left.followedBy h'.left
  right := h.right.followedBy h'.right
  agrees := h'.agrees
  calls := by simp [h.calls, h'.calls]
  same hlog := by
    obtain ⟨htrace, hnext⟩ := h.same hlog
    obtain ⟨htrace', hnext'⟩ := h'.same hnext
    exact ⟨by simp [htrace, htrace'], hnext'⟩

theorem Agrees.refl (r : Recorder) : r.Agrees r := ⟨rfl, rfl, rfl⟩

/-- The same for whole runs. -/
theorem run_transactional {ops : List Operation} (hops : ∀ op ∈ ops, op.isTransactional = true)
    (henabled : r.enabled = true) (hq : r.Agrees q) (h : r.run ops = .ok s) :
    ∃ t, q.run ops = .ok t ∧ SameStep r q s t := by
  induction ops generalizing r q s with
  | nil =>
    obtain rfl := Except.ok.inj h
    exact ⟨_, rfl, ⟨⟨_, _, _, rfl⟩, ⟨_, _, _, rfl⟩, hq, rfl, fun hlog => ⟨rfl, hlog⟩⟩⟩
  | cons op ops ih =>
    obtain ⟨first, rest, hfirst, hrest, rfl⟩ := run_cons.mp h
    rw [perform_enabled henabled] at hfirst
    obtain ⟨first', hfirst', hsame⟩ := record_transactional (hops op (by simp)) hq hfirst
    have henabled' : first.recorder.enabled = true := hsame.left.enabled.trans henabled
    obtain ⟨rest', hrest', hsame'⟩ :=
      ih (fun op hop => hops op (by simp [hop])) henabled' hsame.agrees hrest
    refine ⟨_, run_cons.mpr ⟨first', rest', ?_, hrest', rfl⟩, hsame.followedBy hsame'⟩
    rw [perform_enabled (hq.enabled.trans henabled)]
    exact hfirst'

end Recorder
end EvmTrace
