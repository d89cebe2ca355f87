import EvmTrace.Proofs.Emission
import EvmTrace.Proofs.Transcripts

/-!
# Failed calls

Ending a failed call takes three operations, each with checks of its own. Performed one by one, with
every line put out before the next check is made, they come to what the whole comes to: they all go
through, or the first of them is refused. So no call is left failed and open.
-/
namespace EvmTrace

/-! ## Operations one by one -/

/-- The operations that end the innermost call as failed. -/
def Operation.failedCallParts (gasLeft : UInt64) (isRevert : Bool) (reason : String) :
    List Operation :=
  .callFailed gasLeft reason ::
    if isRevert then [.callReverted, .endCall gasLeft []]
    else [.consumeGas gasLeft gasLeft .failedExecution, .endCall 0 []]

namespace Tracer

/-- What is left after some operations, where one of them may have met a fault. -/
structure Attempted where
  tracer : Tracer
  files : Files
  notes : List Diagnostic
  fault : Option Fault

/-- Performs operations in order up to the first fault, and keeps what was put out before it. -/
def attempt (t : Tracer) (files : Files) : List Operation → Attempted
  | [] => ⟨t, files, [], none⟩
  | op :: ops =>
    match t.perform files op with
    | .error f => ⟨t, files, [], some f⟩
    | .ok (o, _) =>
      let rest := o.tracer.attempt o.files ops
      { rest with notes := o.notes ++ rest.notes }

/-- What is left after a step, or after a fault that came before anything was done. -/
def attempted (t : Tracer) (files : Files) : Except Fault Step → Attempted
  | .ok s => ⟨(t.take files s).tracer, (t.take files s).files, (t.take files s).notes, none⟩
  | .error f => ⟨t, files, [], some f⟩

end Tracer

/-! ## Two steps in a row -/

namespace Step

@[simp] theorem pieces_followedBy (s u : Step) :
    (s.followedBy u).pieces = s.pieces ++ u.pieces := by
  simp [followedBy, pieces]

@[simp] theorem notes_followedBy (s u : Step) : (s.followedBy u).notes = s.notes ++ u.notes := by
  simp [followedBy, notes]

theorem followedBy_idle (s : Step) : s.followedBy (.idle s.recorder) = s := by
  simp [followedBy, idle]

end Step

theorem Draft.absorb_followedBy (d : Draft) (s u : Step) :
    d.absorb (s.followedBy u) = (d.absorb s).absorb u := by
  have htrace : d.trace ++ (s.followedBy u).trace = (d.absorb s).trace ++ u.trace := by
    rw [Step.trace_followedBy, trace_absorb, List.append_assoc]
  have hbuffer : d.buffer.appendAll (s.followedBy u).pieces =
      (d.absorb s).buffer.appendAll u.pieces := by
    rw [buffer_absorb, Step.pieces_followedBy, Buffer.appendAll, List.foldl_append]
    rfl
  simp only [absorb, Step.recorder_followedBy] at htrace hbuffer ⊢
  rw [htrace, hbuffer]

namespace Tracer

theorem emit_append (w : Writer) (files : Files) (a b : List Output) :
    let first := emit w files a
    let second := emit first.writer first.files b
    emit w files (a ++ b) = ⟨second.writer, second.files, first.notes ++ second.notes⟩ := by
  induction a generalizing w files with
  | nil => simp [emit]
  | cons out rest ih =>
    cases out with
    | note diagnostic => simp [emit, ih]
    | line event => simp [emit, ih]
    | forward trace => simp [emit, ih]

theorem take_idle (t : Tracer) (files : Files) :
    t.take files (.idle t.recorder) = ⟨t, files, []⟩ := by
  cases t with
  | direct r w => simp [take, Step.idle, emit, recorder]
  | draft d =>
    have habsorb := d.absorb_idle
    simp only [take, recorder, habsorb]
    rfl

/-- Two steps taken as one leave what they leave one after the other. -/
theorem take_followedBy (t : Tracer) (files : Files) (s u : Step) :
    let first := t.take files s
    let second := first.tracer.take first.files u
    t.take files (s.followedBy u) = ⟨second.tracer, second.files, first.notes ++ second.notes⟩ := by
  cases t with
  | direct r w => simp [take, Step.followedBy, emit_append]
  | draft d => simp [take, Draft.absorb_followedBy]

theorem perform_eq_ok {t : Tracer} {op : Operation} {s : Step}
    (h : t.recorder.perform op = .ok s) (files : Files) :
    t.perform files op = .ok (t.take files s, s.calls) :=
  bind_eq_ok.mpr ⟨s, h, rfl⟩

theorem perform_eq_error {t : Tracer} {op : Operation} {f : Fault}
    (h : t.recorder.perform op = .error f) (files : Files) : t.perform files op = .error f := by
  simp only [perform, h]
  rfl

/-- Operations that all go through leave what their steps leave, taken as one. -/
theorem attempt_of_run {t : Tracer} {ops : List Operation} {s : Step}
    (h : t.recorder.run ops = .ok s) (files : Files) :
    t.attempt files ops = t.attempted files (.ok s) := by
  induction ops generalizing t files s with
  | nil =>
    obtain rfl := Except.ok.inj h
    simp only [attempt, attempted, take_idle]
  | cons op ops ih =>
    obtain ⟨first, rest, hfirst, hrest, rfl⟩ := Recorder.run_cons.mp h
    have hperform := perform_eq_ok hfirst files
    rw [← recorder_take t files first] at hrest
    have htail := ih hrest (t.take files first).files
    simp only [attempt, hperform, htail, attempted, take_followedBy]

/-- A fault that the first operation meets comes before anything is done. -/
theorem attempt_of_first_fault {t : Tracer} {op : Operation} {f : Fault}
    (h : t.recorder.perform op = .error f) (files : Files) (ops : List Operation) :
    t.attempt files (op :: ops) = t.attempted files (.error f) := by
  have hperform := perform_eq_error h files
  simp only [attempt, hperform, attempted]

end Tracer

/-! ## The parts of a failed call -/

/-- The number of the call that a line belongs to; 0 stands for outside all calls. -/
def Event.call? : Event → Option Nat
  | callStart _ call | callParams _ call .. | callWithoutCode call | callFailure call ..
  | callRevert call | callEnd call .. | gasChange call .. | balanceChange call ..
  | nonceChange call .. | codeChange call .. | storageChange call .. | newAccount call _
  | suicide call .. | keccak call .. | log call .. => some call
  | announcement .. | blockStart _ | blockFinal _ | blockEnd .. | blockCancel ..
  | transactionStart _ | sender _ | transactionEnd _ | transactionFailure _ => none

/-- How much less gas there is after a line, which is negative for a refund. -/
def Event.gasSpent : Event → Int
  | gasChange _ old new _ => old.toNat - new.toNat
  | _ => 0

/-- How much gas a call hands back at its end. -/
def Event.gasAtEnd? : Event → Option UInt64
  | callEnd _ gasLeft _ => some gasLeft
  | _ => none

/-- How much gas is told spent, less what is told refunded. -/
def Trace.gasSpent : Trace → Int
  | [] => 0
  | e :: rest => e.gasSpent + Trace.gasSpent rest

namespace Recorder

variable {r : Recorder}

/-- The lines of a call that fails with some gas left. -/
def failureLines (call : Nat) (gasLeft : UInt64) (isRevert : Bool) (reason : String) : Trace :=
  .callFailure call gasLeft reason ::
    if isRevert then [.callRevert call, .callEnd call gasLeft []]
    else (if gasLeft = 0 then [] else [.gasChange call gasLeft 0 .failedExecution]) ++
      [.callEnd call 0 []]

theorem trace_failedCall (r : Recorder) (call : Nat) (outer : List Nat) (gasLeft : UInt64)
    (isRevert : Bool) (reason : String) :
    (r.failedCall call outer gasLeft isRevert reason).trace =
      failureLines call gasLeft isRevert reason := by
  unfold failedCall failureLines
  cases isRevert with
  | true => simp
  | false =>
    by_cases hgas : gasLeft = 0
    · simp [hgas]
    · simp [hgas]

/-- A revert hands the gas back, and any other failure burns it if there is any. -/
theorem failureLines_cases (call : Nat) (gasLeft : UInt64) (isRevert : Bool) (reason : String) :
    let lines := failureLines call gasLeft isRevert reason
    lines = [.callFailure call gasLeft reason, .callRevert call, .callEnd call gasLeft []] ∨
    (gasLeft = 0 ∧ lines = [.callFailure call gasLeft reason, .callEnd call 0 []]) ∨
    lines = [.callFailure call gasLeft reason, .gasChange call gasLeft 0 .failedExecution,
      .callEnd call 0 []] := by
  intro lines
  cases isRevert with
  | true => exact .inl rfl
  | false =>
    right
    by_cases hgas : gasLeft = 0
    · exact .inl ⟨hgas, by simp [lines, failureLines, hgas]⟩
    · exact .inr (by simp [lines, failureLines, hgas])

theorem call?_of_mem_failureLines {call : Nat} {gasLeft : UInt64} {isRevert : Bool}
    {reason : String} {e : Event} (he : e ∈ failureLines call gasLeft isRevert reason) :
    e.call? = some call := by
  rcases failureLines_cases call gasLeft isRevert reason with h | ⟨-, h⟩ | h
  · rw [h] at he
    simp only [List.mem_cons, List.not_mem_nil, or_false] at he
    rcases he with rfl | rfl | rfl <;> rfl
  · rw [h] at he
    simp only [List.mem_cons, List.not_mem_nil, or_false] at he
    rcases he with rfl | rfl <;> rfl
  · rw [h] at he
    simp only [List.mem_cons, List.not_mem_nil, or_false] at he
    rcases he with rfl | rfl | rfl <;> rfl

/-- The gas that is told spent, and the gas handed back, are the gas that was left. -/
theorem gas_failureLines (call : Nat) (gasLeft : UInt64) (isRevert : Bool) (reason : String) :
    let lines := failureLines call gasLeft isRevert reason
    ∃ back, lines.filterMap Event.gasAtEnd? = [back] ∧
      gasLeft.toNat - lines.gasSpent = (back.toNat : Int) := by
  intro lines
  rcases failureLines_cases call gasLeft isRevert reason with h | ⟨hgas, h⟩ | h
  · refine ⟨gasLeft, by simp only [lines, h]; rfl, ?_⟩
    simp [lines, h, Trace.gasSpent, Event.gasSpent]
  · refine ⟨0, by simp only [lines, h]; rfl, ?_⟩
    simp [lines, h, hgas, Trace.gasSpent, Event.gasSpent]
  · refine ⟨0, by simp only [lines, h]; rfl, ?_⟩
    simp [lines, h, Trace.gasSpent, Event.gasSpent]

theorem handed_failedCall (r : Recorder) (call : Nat) (outer : List Nat) (gasLeft : UInt64)
    (isRevert : Bool) (reason : String) :
    (r.failedCall call outer gasLeft isRevert reason).handed =
      (failureLines call gasLeft isRevert reason).map Event.line := by
  unfold failedCall failureLines
  cases isRevert with
  | true => rfl
  | false =>
    by_cases hgas : gasLeft = 0
    · simp only [hgas, Bool.false_eq_true, if_true, if_false]
      rfl
    · simp only [hgas, Bool.false_eq_true, if_false]
      rfl

/-- With no call open, the first of the parts is refused. -/
theorem callFailed_of_closed (h : r.calls.calls = []) (gasLeft : UInt64) (reason : String) :
    r.callFailed gasLeft reason = .error ⟨.noOpenCall .failure, r⟩ := by
  have hempty : r.calls.isEmpty = true := (CallStack.isEmpty_iff _).mpr h
  simp [callFailed, requireCall, require, hempty, bind, Except.bind]

theorem endFailedCall_of_closed (h : r.calls.calls = []) (gasLeft : UInt64) (isRevert : Bool)
    (reason : String) :
    r.endFailedCall gasLeft isRevert reason = .error ⟨.noOpenCall .failure, r⟩ := by
  rw [endFailedCall, callFailed_of_closed h]
  rfl

/-- With a call open, each part goes through on what the part before it left. -/
theorem run_failedCallParts (hon : r.enabled = true) {call : Nat} {outer : List Nat}
    (h : r.calls.calls = call :: outer) (gasLeft : UInt64) (isRevert : Bool) (reason : String) :
    r.run (Operation.failedCallParts gasLeft isRevert reason) =
      .ok (r.failedCall call outer gasLeft isRevert reason) := by
  have hopen : r.calls.calls ≠ [] := by simp [h]
  have hactive : r.activeCall = call := activeCall_of_calls h
  have hfailed : r.perform (.callFailed gasLeft reason) =
      .ok (.line r (.callFailure call gasLeft reason)) := by
    rw [perform_enabled hon]
    exact callFailed_eq_ok.mpr ⟨hopen, by rw [hactive]⟩
  have hend (gas : UInt64) : r.run [.endCall gas []] =
      .ok (.noted { r with calls := { r.calls with calls := outer } } (.callEnded call gas)
        (.callEnd call gas [])) := by
    refine run_singleton.mpr ⟨_, ?_, (Step.followedBy_idle _).symm⟩
    rw [perform_enabled hon]
    exact endCall_eq_ok.mpr ⟨call, outer, h, rfl⟩
  cases isRevert with
  | true =>
    have hreverted : r.perform .callReverted = .ok (.line r (.callRevert call)) := by
      rw [perform_enabled hon]
      exact callReverted_eq_ok.mpr ⟨hopen, by rw [hactive]⟩
    have hrest := run_cons.mpr ⟨_, _, hreverted, hend gasLeft, rfl⟩
    exact run_cons.mpr ⟨_, _, hfailed, hrest, Step.followedBy_assoc ..⟩
  | false =>
    have hburnt : r.perform (.consumeGas gasLeft gasLeft .failedExecution) = _ :=
      (perform_enabled hon _).trans (consumeGas_all r gasLeft)
    rw [hactive] at hburnt
    have hkept : (if gasLeft = 0 then Step.idle r
        else .noted r (.gasConsumed gasLeft 0 .failedExecution)
          (.gasChange call gasLeft 0 .failedExecution)).recorder = r := by
      split
      · rfl
      · rfl
    have hrest := run_cons.mpr ⟨_, _, hburnt, by rw [hkept]; exact hend 0, rfl⟩
    exact run_cons.mpr ⟨_, _, hfailed, hrest, Step.followedBy_assoc ..⟩

end Recorder

namespace Tracer

variable {t : Tracer}

theorem attempt_failedCallParts (hon : t.recorder.enabled = true) (files : Files)
    (gasLeft : UInt64) (isRevert : Bool) (reason : String) :
    t.attempt files (Operation.failedCallParts gasLeft isRevert reason) =
      t.attempted files (t.recorder.endFailedCall gasLeft isRevert reason) := by
  cases hcalls : t.recorder.calls.calls with
  | nil =>
    rw [Recorder.endFailedCall_of_closed hcalls]
    refine attempt_of_first_fault ?_ files _
    rw [Recorder.perform_enabled hon]
    exact Recorder.callFailed_of_closed hcalls gasLeft reason
  | cons call outer =>
    rw [Recorder.endFailedCall_of_open hcalls]
    exact attempt_of_run (Recorder.run_failedCallParts hon hcalls gasLeft isRevert reason) files

/-- The writer of a tracer is handed what its steps hand over, whatever its sink does. -/
theorem take_direct (r : Recorder) (w : Writer) (files : Files) (s : Step) :
    ((direct r w).take files s).tracer = .direct s.recorder (w.handAll files s.handed).1 := by
  have hemit := congrArg Prod.fst (emit_eq w files s.output)
  simp only [take, Step.handed, ← hemit]

/-- Ending a failed call leaves what its parts leave one by one, and that is all or nothing. With no
call open it is refused, and nothing is put out or changed. With a call open it goes through: that
call is closed and nothing else is changed, all lines belong to that call, and the gas that was left
is the gas handed back together with the gas that is told spent. -/
theorem failed_call_ends_whole (hon : t.recorder.enabled = true) (files : Files)
    (gasLeft : UInt64) (isRevert : Bool) (reason : String) :
    let op := Operation.endFailedCall gasLeft isRevert reason
    let r := t.recorder
    let left := t.attempt files (Operation.failedCallParts gasLeft isRevert reason)
    (r.calls.calls = [] →
      t.perform files op = .error ⟨.noOpenCall .failure, r⟩ ∧
      left = ⟨t, files, [], some ⟨.noOpenCall .failure, r⟩⟩) ∧
    ∀ call outer, r.calls.calls = call :: outer →
      ∃ (o : Outcome) (lines : Trace) (back : UInt64),
      t.perform files op = .ok (o, []) ∧
      left = ⟨o.tracer, o.files, o.notes, none⟩ ∧
      o.tracer.recorder = { r with calls := { r.calls with calls := outer } } ∧
      lines = .callFailure call gasLeft reason ::
        (if isRevert then [.callRevert call, .callEnd call gasLeft []]
        else (if gasLeft = 0 then [] else [.gasChange call gasLeft 0 .failedExecution]) ++
          [.callEnd call 0 []]) ∧
      (∀ e ∈ lines, e.call? = some call) ∧
      lines.filterMap Event.gasAtEnd? = [back] ∧
      gasLeft.toNat - Trace.gasSpent lines = (back.toNat : Int) ∧
      (∀ d, t = .draft d → ∃ d', o.tracer = .draft d' ∧ d'.trace = d.trace ++ lines) ∧
      (∀ w, t = .direct r w →
        o.tracer.writer? = some (w.handAll files (lines.map Event.line)).1) ∧
      (t.AcceptsAll → o.tracer.content = t.content ++ lines.bytes) := by
  intro op r left
  have hleft := attempt_failedCallParts hon files gasLeft isRevert reason
  refine ⟨fun hcalls => ?_, fun call outer hcalls => ?_⟩
  · have hrefused := Recorder.endFailedCall_of_closed hcalls gasLeft isRevert reason
    refine ⟨perform_eq_error ?_ files, ?_⟩
    · rw [Recorder.perform_enabled hon]
      exact hrefused
    · rw [hrefused] at hleft
      exact hleft
  · have hdone := Recorder.endFailedCall_of_open hcalls gasLeft isRevert reason
    set s := t.recorder.failedCall call outer gasLeft isRevert reason with hs
    have htrace : s.trace = Recorder.failureLines call gasLeft isRevert reason :=
      Recorder.trace_failedCall ..
    have hcallsOf : s.calls = [] := by rw [hs, Recorder.failedCall_eq]
    obtain ⟨back, hback, hgas⟩ := Recorder.gas_failureLines call gasLeft isRevert reason
    refine ⟨t.take files s, Recorder.failureLines call gasLeft isRevert reason, back, ?_, ?_, ?_,
      rfl, fun e he => Recorder.call?_of_mem_failureLines he, hback, hgas, fun d hd => ?_,
      fun w hw => ?_, fun haccepts => ?_⟩
    · have hperform : t.recorder.perform op = .ok s := by
        rw [Recorder.perform_enabled hon]
        exact hdone
      rw [perform_eq_ok hperform files, hcallsOf]
    · rw [hdone] at hleft
      exact hleft
    · rw [recorder_take, hs, Recorder.failedCall_eq]
    · subst hd
      exact ⟨d.absorb s, rfl, by rw [Draft.trace_absorb, htrace]⟩
    · have hhanded : s.handed = _ := Recorder.handed_failedCall ..
      rw [hw, take_direct, hhanded]
      rfl
    · rw [(take_of_acceptsAll haccepts files s).2.2, htrace]

/-- A recorder in the second of two nested calls, after a third one has ended. -/
def nestedRecorder : Recorder := ⟨true, false, some ⟨some 1⟩, 4, true, ⟨3, [2, 1]⟩⟩

/-- The greatest amount of gas is burnt in one call, and then the next outer one is open. -/
theorem failed_call_ends_whole_nested :
    let t := direct nestedRecorder ⟨.accepting, ""⟩
    ∃ o, t.perform ⟨[]⟩ (.endFailedCall 18446744073709551615 false "out of gas") = .ok (o, []) ∧
      o.tracer.recorder = { nestedRecorder with calls := ⟨3, [1]⟩ } ∧
      o.tracer.content = Trace.bytes
        [.callFailure 2 18446744073709551615 "out of gas",
         .gasChange 2 18446744073709551615 0 .failedExecution, .callEnd 2 0 []] ∧
      (direct (.fresh true false) ⟨.accepting, ""⟩).perform ⟨[]⟩ (.endFailedCall 0 true "") =
        .error ⟨.noOpenCall .failure, .fresh true false⟩ := by
  intro t
  have hopen := failed_call_ends_whole (t := t) rfl ⟨[]⟩ 18446744073709551615 false "out of gas"
  have hclosed := failed_call_ends_whole (t := direct (.fresh true false) ⟨.accepting, ""⟩) rfl
    ⟨[]⟩ 0 true ""
  obtain ⟨o, lines, -, hdone, -, hrecorder, hlines, -, -, -, -, -, hcontent⟩ :=
    hopen.2 2 [1] rfl
  refine ⟨o, hdone, hrecorder, ?_, (hclosed.1 rfl).1⟩
  have hgas : ¬ (18446744073709551615 : UInt64) = 0 := by decide
  rw [hcontent Sink.acceptsAll_accepting, hlines]
  simp only [Bool.false_eq_true, if_false, hgas]
  rfl

end Tracer
end EvmTrace
