import EvmTrace.Proofs.Operations

/-!
# What operations put out

The lines of an operation that goes through can be told from the operation and from what is open.
Whatever else an operation checks decides only whether it goes through.
-/
namespace EvmTrace

/-- The number of a call that starts. -/
def Event.started? : Event → Option Nat
  | callStart _ call => some call
  | _ => none

/-- Starts, ends or drops a transaction; calls are numbered from 1 on again then. -/
def Event.restarts : Event → Bool
  | transactionStart _ | transactionEnd _ | transactionFailure _ | blockCancel .. => true
  | _ => false

/-- The numbers of the calls that start, in order. -/
def Trace.starts (t : Trace) : List Nat := t.filterMap Event.started?

namespace Recorder

variable {r : Recorder} {s : Step} {op : Operation}

/-- The lines that the operation puts out if it goes through. -/
def emission (r : Recorder) : Operation → Trace
  | .announce node protocol chain => [.announcement protocol chain node]
  | .startBlock block => [.blockStart block.number]
  | .finalizeBlock block => [.blockFinal block.number]
  | .endBlock block totalDifficulty => [.blockEnd block totalDifficulty]
  | .cancelBlock block reason => [.blockCancel block.number reason]
  | .startTransaction tx index baseFee => [.transactionStart (.ofTransaction tx index baseFee)]
  | .sender address => [.sender address]
  | .failTransaction reason => [.transactionFailure reason]
  | .endTransaction receipt => [.transactionEnd receipt]
  | .startCall type => [.callStart type (r.calls.opened + 1)]
  | .callParams type caller target value gas input =>
    [.callParams type r.activeCall caller target value gas input]
  | .callWithoutCode => [.callWithoutCode r.activeCall]
  | .callFailed gasLeft reason => [.callFailure r.activeCall gasLeft reason]
  | .callReverted => [.callRevert r.activeCall]
  | .endCall gasLeft returned => [.callEnd r.activeCall gasLeft returned]
  | .endFailedCall gasLeft true reason =>
    [.callFailure r.activeCall gasLeft reason, .callRevert r.activeCall,
     .callEnd r.activeCall gasLeft []]
  | .endFailedCall gasLeft false reason =>
    .callFailure r.activeCall gasLeft reason ::
      ((if gasLeft = 0 then [] else [.gasChange r.activeCall gasLeft 0 .failedExecution]) ++
        [.callEnd r.activeCall 0 []])
  | .consumeGas old amount reason =>
    if reason.isIgnored || amount == 0 then []
    else [.gasChange r.activeCall old (old - amount) reason]
  | .refundGas old amount =>
    if amount == 0 then []
    else [.gasChange r.activeCall old (saturatingAdd old amount) .refundAfterExecution]
  | .changeBalance address old new reason =>
    if reason.isIgnored then [] else [.balanceChange r.activeCall address old new reason]
  | .changeNonce address old new => [.nonceChange r.activeCall address old new]
  | .changeCode address oldHash old newHash new =>
    [.codeChange r.activeCall address oldHash old newHash new]
  | .changeStorage address key old new => [.storageChange r.activeCall address key old new]
  | .createAccount address => [.newAccount r.activeCall address]
  | .suicide address suicided balance => [.suicide r.activeCall address suicided balance]
  | .keccak hash preimage => [.keccak r.activeCall hash preimage]
  | .log l => [.log r.activeCall r.nextLog l]

theorem activeCall_of_calls {call : Nat} {outer : List Nat} (h : r.calls.calls = call :: outer) :
    r.activeCall = call := by
  simp [activeCall, CallStack.active, h]

theorem emission_failedCall {call : Nat} {outer : List Nat} (h : r.calls.calls = call :: outer)
    (gasLeft : UInt64) (isRevert : Bool) (reason : String) :
    let t := r.failedCall call outer gasLeft isRevert reason
    let lines := r.emission (.endFailedCall gasLeft isRevert reason)
    t.trace = lines ∧ t.calls = lines.starts := by
  unfold failedCall
  cases isRevert with
  | true => simp [emission, activeCall_of_calls h, Trace.starts, Event.started?]
  | false =>
    by_cases hgas : gasLeft = 0 <;>
      simp [emission, activeCall_of_calls h, hgas, Trace.starts, Event.started?]

/-- An operation that goes through puts out its lines, and gives the numbers of the calls that
start in them. -/
theorem emission_record (h : r.record op = .ok s) :
    s.trace = r.emission op ∧ s.calls = (r.emission op).starts := by
  have hguard {c : Bool} {v : Violation} {next : Except Fault Step}
      (h : (r.require c v >>= fun _ => next) = .ok s) : next = .ok s :=
    (bind_eq_ok.mp h).elim fun _ hnext => hnext.2
  have hdone {t : Step} {lines : Trace} (h : Except.ok t = (.ok s : Except Fault Step))
      (ht : t.trace = lines) (hcalls : t.calls = lines.starts) :
      s.trace = lines ∧ s.calls = lines.starts := by
    obtain rfl := Except.ok.inj h
    exact ⟨ht, hcalls⟩
  cases op with
  | cancelBlock | sender | failTransaction | callParams | callWithoutCode | callFailed
  | callReverted => exact hdone (hguard h) rfl rfl
  | startBlock | finalizeBlock | endTransaction => exact hdone (hguard (hguard h)) rfl rfl
  | endBlock | startTransaction => exact hdone (hguard (hguard (hguard h))) rfl rfl
  | endCall gasLeft returned =>
    obtain ⟨call, outer, hcalls, rfl⟩ := endCall_eq_ok.mp h
    exact ⟨by rw [Step.trace_noted, emission, activeCall_of_calls hcalls], rfl⟩
  | endFailedCall gasLeft isRevert reason =>
    obtain ⟨call, outer, hcalls, rfl⟩ := endFailedCall_eq_ok.mp h
    exact emission_failedCall hcalls ..
  | consumeGas old amount reason =>
    rcases consumeGas_eq_ok.mp h with ⟨hskip, rfl⟩ | ⟨hreason, hamount, -, rfl⟩
    · rcases hskip with rfl | rfl <;> simp [emission, GasReason.isIgnored, Trace.starts]
    · simp [emission, GasReason.isIgnored, hreason, hamount, Trace.starts, Event.started?]
  | refundGas old amount =>
    refine hdone h ?_ ?_ <;> simp only [refundGas, emission] <;> split <;> rfl
  | changeBalance address old new reason =>
    refine hdone h ?_ ?_ <;> simp only [changeBalance, emission] <;> split <;> rfl
  | announce | startCall | changeNonce | changeCode | changeStorage | createAccount | suicide
  | keccak | log => exact hdone h rfl rfl

theorem trace_record (h : r.record op = .ok s) : s.trace = r.emission op := (emission_record h).1

theorem calls_record (h : r.record op = .ok s) : s.calls = s.trace.starts := by
  rw [(emission_record h).1, (emission_record h).2]

end Recorder
end EvmTrace
