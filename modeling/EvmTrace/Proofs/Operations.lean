import EvmTrace.Recorder.Operation
import EvmTrace.Proofs.Results

/-!
# What operations do

For each operation that can end in a fault, when it does not and what it does then. Everything
else about operations and runs of them follows from these equations.
-/
namespace EvmTrace

theorem CallStack.isEmpty_iff (s : CallStack) : s.isEmpty = true ↔ s.calls = [] := by
  simp [isEmpty]

namespace Step

@[simp] theorem recorder_idle (r : Recorder) : (idle r).recorder = r := rfl

@[simp] theorem recorder_line (r : Recorder) (e : Event) : (line r e).recorder = r := rfl

@[simp] theorem recorder_noted (r : Recorder) (d : Diagnostic) (e : Event) :
    (noted r d e).recorder = r := rfl

@[simp] theorem calls_idle (r : Recorder) : (idle r).calls = [] := rfl

@[simp] theorem calls_line (r : Recorder) (e : Event) : (line r e).calls = [] := rfl

@[simp] theorem calls_noted (r : Recorder) (d : Diagnostic) (e : Event) :
    (noted r d e).calls = [] := rfl

/-- One step after another, taken as a single step. -/
def followedBy (s t : Step) : Step := ⟨t.recorder, s.output ++ t.output, s.calls ++ t.calls⟩

@[simp] theorem recorder_followedBy (s t : Step) : (s.followedBy t).recorder = t.recorder := rfl

@[simp] theorem calls_followedBy (s t : Step) : (s.followedBy t).calls = s.calls ++ t.calls :=
  rfl

@[simp] theorem trace_followedBy (s t : Step) : (s.followedBy t).trace = s.trace ++ t.trace := by
  simp [followedBy, trace]

theorem followedBy_assoc (s t u : Step) :
    (s.followedBy t).followedBy u = s.followedBy (t.followedBy u) := by
  simp [followedBy]

theorem andThen_eq_ok_iff {s t : Step} {next : Recorder → Except Fault Step} :
    s.andThen next = .ok t ↔ ∃ u, next s.recorder = .ok u ∧ t = s.followedBy u := by
  simp only [andThen, bind_eq_ok, pure_eq_ok, followedBy]

end Step

namespace Recorder

variable {r : Recorder} {s : Step}

@[simp] theorem inBlock_iff : r.inBlock = true ↔ r.block ≠ none := by
  simp [inBlock, Option.isSome_iff_ne_none]

theorem requireInBlock_eq_ok {u : Unit} : r.requireInBlock = .ok u ↔ r.block ≠ none := by
  simp [requireInBlock, require_eq_ok]

theorem requireOutsideBlock_eq_ok {u : Unit} :
    r.requireOutsideBlock = .ok u ↔ r.block = none := by
  simp [requireOutsideBlock, require_eq_ok, inBlock]

theorem requireInTransaction_eq_ok {u : Unit} :
    r.requireInTransaction = .ok u ↔ r.inTransaction = true := require_eq_ok

theorem requireOutsideTransaction_eq_ok {u : Unit} :
    r.requireOutsideTransaction = .ok u ↔ r.inTransaction = false := by
  simp [requireOutsideTransaction, require_eq_ok]

theorem requireNoCall_eq_ok {b : Boundary} {u : Unit} :
    r.requireNoCall b = .ok u ↔ r.calls.calls = [] := by
  simp [requireNoCall, require_eq_ok, CallStack.isEmpty_iff]

theorem requireCall_eq_ok {n : CallNote} {u : Unit} :
    r.requireCall n = .ok u ↔ r.calls.calls ≠ [] := by
  simp [requireCall, require_eq_ok, ← CallStack.isEmpty_iff]

/-! ## Blocks -/

theorem startBlock_eq_ok {b : Block} :
    r.startBlock b = .ok s ↔ r.block = none ∧ r.calls.calls = [] ∧
      s = .noted { r with block := some ⟨some b.number⟩, nextLog := 0 }
        (.blockStarted b.number b.hash) (.blockStart b.number) := by
  simp only [startBlock, bind_eq_ok, requireOutsideBlock_eq_ok, requireNoCall_eq_ok,
    pure_eq_ok, exists_const]

theorem finalizeBlock_eq_ok {b : Block} :
    r.finalizeBlock b = .ok s ↔ r.block ≠ none ∧ r.calls.calls = [] ∧
      s = .line r (.blockFinal b.number) := by
  simp only [finalizeBlock, bind_eq_ok, requireInBlock_eq_ok, requireNoCall_eq_ok,
    pure_eq_ok, exists_const]

theorem endBlock_eq_ok {b : Block} {d : Option Word} :
    r.endBlock b d = .ok s ↔ r.block ≠ none ∧ r.inTransaction = false ∧ r.calls.calls = [] ∧
      s = .noted r.leaveBlock (.blockEnded b.number b.size) (.blockEnd b d) := by
  simp only [endBlock, bind_eq_ok, requireInBlock_eq_ok, requireOutsideTransaction_eq_ok,
    requireNoCall_eq_ok,
    pure_eq_ok, exists_const]

theorem cancelBlock_eq_ok {b : Block} {reason : String} :
    r.cancelBlock b reason = .ok s ↔ r.block ≠ none ∧
      s = .noted r.leaveTransaction.leaveBlock (.blockCancelled b.number reason)
        (.blockCancel b.number reason) := by
  simp only [cancelBlock, bind_eq_ok, requireInBlock_eq_ok, pure_eq_ok, exists_const]

/-! ## Transactions -/

theorem startTransaction_eq_ok {tx : Transaction} {index : UInt64} {fee : Option Word} :
    r.startTransaction tx index fee = .ok s ↔
      r.block ≠ none ∧ r.inTransaction = false ∧ r.calls.calls = [] ∧
      s = .noted { r with inTransaction := true, calls := .empty }
        (.transactionStarted index tx.hash)
        (.transactionStart (.ofTransaction tx index fee)) := by
  simp only [startTransaction, bind_eq_ok, requireInBlock_eq_ok,
    requireOutsideTransaction_eq_ok, requireNoCall_eq_ok,
    pure_eq_ok, exists_const]

theorem sender_eq_ok {a : Address} :
    r.sender a = .ok s ↔ r.inTransaction = true ∧ s = .line r (.sender a) := by
  simp only [sender, bind_eq_ok, requireInTransaction_eq_ok, pure_eq_ok, exists_const]

theorem failTransaction_eq_ok {reason : String} :
    r.failTransaction reason = .ok s ↔ r.inTransaction = true ∧
      s = .noted r.leaveTransaction (.transactionFailed reason) (.transactionFailure reason) := by
  simp only [failTransaction, bind_eq_ok, requireInTransaction_eq_ok, pure_eq_ok, exists_const]

theorem endTransaction_eq_ok {receipt : Receipt} :
    r.endTransaction receipt = .ok s ↔ r.inTransaction = true ∧ r.calls.calls = [] ∧
      s = ⟨r.leaveTransaction,
        [.line (.transactionEnd receipt), .note (.transactionEnded receipt.gasUsed)], []⟩ := by
  simp only [endTransaction, bind_eq_ok, requireInTransaction_eq_ok, requireNoCall_eq_ok,
    pure_eq_ok, exists_const]

/-! ## Calls -/

theorem callParams_eq_ok {type : CallType} {caller target : Address} {value : Option Word}
    {gas : UInt64} {input : Bytes} :
    r.callParams type caller target value gas input = .ok s ↔ r.calls.calls ≠ [] ∧
      s = .line r (.callParams type r.activeCall caller target value gas input) := by
  simp only [callParams, bind_eq_ok, requireCall_eq_ok, pure_eq_ok, exists_const]

theorem callWithoutCode_eq_ok :
    r.callWithoutCode = .ok s ↔ r.calls.calls ≠ [] ∧
      s = .line r (.callWithoutCode r.activeCall) := by
  simp only [callWithoutCode, bind_eq_ok, requireCall_eq_ok, pure_eq_ok, exists_const]

theorem callFailed_eq_ok {gasLeft : UInt64} {reason : String} :
    r.callFailed gasLeft reason = .ok s ↔ r.calls.calls ≠ [] ∧
      s = .line r (.callFailure r.activeCall gasLeft reason) := by
  simp only [callFailed, bind_eq_ok, requireCall_eq_ok, pure_eq_ok, exists_const]

theorem callReverted_eq_ok :
    r.callReverted = .ok s ↔ r.calls.calls ≠ [] ∧ s = .line r (.callRevert r.activeCall) := by
  simp only [callReverted, bind_eq_ok, requireCall_eq_ok, pure_eq_ok, exists_const]

theorem endCall_eq_ok {gasLeft : UInt64} {returned : Bytes} :
    r.endCall gasLeft returned = .ok s ↔ ∃ call outer, r.calls.calls = call :: outer ∧
      s = .noted { r with calls := { r.calls with calls := outer } }
        (.callEnded call gasLeft) (.callEnd call gasLeft returned) := by
  unfold endCall CallStack.pop
  cases r.calls.calls with
  | nil => simp
  | cons call outer =>
    constructor
    · intro h
      exact ⟨call, outer, rfl, (Except.ok.inj h).symm⟩
    · rintro ⟨_, _, hcalls, rfl⟩
      obtain ⟨rfl, rfl⟩ := List.cons.inj hcalls
      rfl

theorem consumeGas_eq_ok {old amount : UInt64} {reason : GasReason} :
    r.consumeGas old amount reason = .ok s ↔
      ((reason = .ignored ∨ amount = 0) ∧ s = .idle r) ∨
      (reason ≠ .ignored ∧ amount ≠ 0 ∧ amount ≤ old ∧
        s = .noted r (.gasConsumed old (old - amount) reason)
          (.gasChange r.activeCall old (old - amount) reason)) := by
  unfold consumeGas GasReason.isIgnored
  by_cases hskip : reason = .ignored ∨ amount = 0
  · have hor : (reason == .ignored || amount == 0) = true := by simpa using hskip
    rw [if_pos hor]
    constructor
    · intro h
      exact .inl ⟨hskip, (Except.ok.inj h).symm⟩
    · rintro (⟨_, rfl⟩ | ⟨hreason, hamount, _⟩)
      · rfl
      · exact absurd hskip (not_or.mpr ⟨hreason, hamount⟩)
  · have hor : ¬(reason == .ignored || amount == 0) = true := by simpa using hskip
    obtain ⟨hreason, hamount⟩ := not_or.mp hskip
    rw [if_neg hor]
    by_cases hgas : old < amount
    · simp [hgas, hreason, hamount, UInt64.not_le.mpr hgas]
    · rw [if_neg hgas]
      constructor
      · intro h
        exact .inr ⟨hreason, hamount, UInt64.not_lt.mp hgas, (Except.ok.inj h).symm⟩
      · rintro (⟨hskip', _⟩ | ⟨_, _, _, rfl⟩)
        · exact absurd hskip' hskip
        · rfl

/-- What a call that failed leaves behind: the failure, then either the revert or the burning of
what gas there is, then the end. -/
def failedCall (r : Recorder) (call : Nat) (outer : List Nat) (gasLeft : UInt64)
    (isRevert : Bool) (reason : String) : Step :=
  let rest := { r with calls := { r.calls with calls := outer } }
  let failure := Step.line r (.callFailure call gasLeft reason)
  if isRevert then
    (failure.followedBy (.line r (.callRevert call))).followedBy
      (.noted rest (.callEnded call gasLeft) (.callEnd call gasLeft []))
  else
    let burnt := if gasLeft = 0 then .idle r
      else .noted r (.gasConsumed gasLeft 0 .failedExecution)
        (.gasChange call gasLeft 0 .failedExecution)
    (failure.followedBy burnt).followedBy
      (.noted rest (.callEnded call 0) (.callEnd call 0 []))

/-- Burning all the gas that is left always goes through. -/
theorem consumeGas_all (r : Recorder) (gasLeft : UInt64) :
    r.consumeGas gasLeft gasLeft .failedExecution =
      .ok (if gasLeft = 0 then .idle r
        else .noted r (.gasConsumed gasLeft 0 .failedExecution)
          (.gasChange r.activeCall gasLeft 0 .failedExecution)) := by
  rw [consumeGas_eq_ok]
  by_cases hgas : gasLeft = 0
  · exact .inl ⟨.inr hgas, by rw [if_pos hgas]⟩
  · refine .inr ⟨by decide, hgas, UInt64.le_refl _, ?_⟩
    rw [if_neg hgas, UInt64.sub_self]

theorem endFailedCall_of_open {call : Nat} {outer : List Nat} (h : r.calls.calls = call :: outer)
    (gasLeft : UInt64) (isRevert : Bool) (reason : String) :
    r.endFailedCall gasLeft isRevert reason =
      .ok (r.failedCall call outer gasLeft isRevert reason) := by
  have hopen : r.calls.calls ≠ [] := by simp [h]
  have hactive : r.activeCall = call := by simp [activeCall, CallStack.active, h]
  have hfailed : r.callFailed gasLeft reason = .ok (.line r (.callFailure call gasLeft reason)) :=
    callFailed_eq_ok.mpr ⟨hopen, by rw [hactive]⟩
  have hend (g : UInt64) : r.endCall g [] =
      .ok (.noted { r with calls := { r.calls with calls := outer } } (.callEnded call g)
        (.callEnd call g [])) := endCall_eq_ok.mpr ⟨call, outer, h, rfl⟩
  refine bind_eq_ok.mpr ⟨_, hfailed, ?_⟩
  cases isRevert with
  | true =>
    have hreverted : r.callReverted = .ok (.line r (.callRevert call)) :=
      callReverted_eq_ok.mpr ⟨hopen, by rw [hactive]⟩
    refine bind_eq_ok.mpr ⟨_, Step.andThen_eq_ok_iff.mpr ⟨_, hreverted, rfl⟩, ?_⟩
    exact Step.andThen_eq_ok_iff.mpr ⟨_, hend gasLeft, rfl⟩
  | false =>
    have hburnt := consumeGas_all r gasLeft
    rw [hactive] at hburnt
    refine bind_eq_ok.mpr ⟨_, Step.andThen_eq_ok_iff.mpr ⟨_, hburnt, rfl⟩, ?_⟩
    refine Step.andThen_eq_ok_iff.mpr ⟨_, ?_, rfl⟩
    by_cases hgas : gasLeft = 0
    · simpa [hgas] using hend 0
    · simpa [hgas] using hend 0

theorem endFailedCall_eq_ok {gasLeft : UInt64} {isRevert : Bool} {reason : String} :
    r.endFailedCall gasLeft isRevert reason = .ok s ↔ ∃ call outer,
      r.calls.calls = call :: outer ∧ s = r.failedCall call outer gasLeft isRevert reason := by
  constructor
  · intro h
    obtain ⟨failed, hfailed, _⟩ := bind_eq_ok.mp h
    obtain ⟨call, outer, hcalls⟩ :=
      List.exists_cons_of_ne_nil (callFailed_eq_ok.mp hfailed).1
    rw [endFailedCall_of_open hcalls] at h
    exact ⟨call, outer, hcalls, (Except.ok.inj h).symm⟩
  · rintro ⟨call, outer, hcalls, rfl⟩
    exact endFailedCall_of_open hcalls ..

/-! ## Runs -/

@[simp] theorem run_nil : r.run [] = .ok (.idle r) := rfl

theorem run_cons {op : Operation} {ops : List Operation} :
    r.run (op :: ops) = .ok s ↔ ∃ t u, r.perform op = .ok t ∧ t.recorder.run ops = .ok u ∧
      s = t.followedBy u := by
  simp only [run, bind_eq_ok, Step.andThen_eq_ok_iff, exists_and_left]

theorem run_singleton {op : Operation} :
    r.run [op] = .ok s ↔ ∃ t, r.perform op = .ok t ∧ s = t.followedBy (.idle t.recorder) := by
  rw [run_cons]
  constructor
  · rintro ⟨t, _, ht, hnil, rfl⟩
    obtain rfl := Except.ok.inj hnil
    exact ⟨t, ht, rfl⟩
  · rintro ⟨t, ht, rfl⟩
    exact ⟨t, _, ht, rfl, rfl⟩

theorem run_append {a b : List Operation} :
    r.run (a ++ b) = .ok s ↔ ∃ t u, r.run a = .ok t ∧ t.recorder.run b = .ok u ∧
      s = t.followedBy u := by
  induction a generalizing r s with
  | nil => simp [Step.followedBy, Step.idle]
  | cons op ops ih =>
    simp only [List.cons_append, run_cons, ih]
    constructor
    · rintro ⟨t, _, ht, ⟨u, v, hu, hv, rfl⟩, rfl⟩
      exact ⟨_, v, ⟨t, u, ht, hu, rfl⟩, hv, (Step.followedBy_assoc t u v).symm⟩
    · rintro ⟨_, v, ⟨t, u, ht, hu, rfl⟩, hv, rfl⟩
      exact ⟨t, _, ht, ⟨u, v, hu, hv, rfl⟩, Step.followedBy_assoc t u v⟩

theorem perform_enabled (h : r.enabled = true) (op : Operation) :
    r.perform op = r.record op := by
  simp [perform, h]

end Recorder
end EvmTrace
