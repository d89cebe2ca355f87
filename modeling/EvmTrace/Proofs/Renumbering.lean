import EvmTrace.Proofs.Emission
import EvmTrace.Proofs.Standing

/-!
# Other numbers for calls

A recorder that counts more calls does the same with higher numbers, up to the moment when numbers
begin again. Faults and their messages are the same throughout.
-/
namespace EvmTrace

/-- The number of a call behind so many others. 0 stands for no call. -/
def raised (base : Nat) : Nat → Nat
  | 0 => 0
  | call + 1 => base + call + 1

@[simp] theorem raised_zero (call : Nat) : raised 0 call = call := by
  cases call <;> simp [raised]

namespace CallStack

def raise (base : Nat) (s : CallStack) : CallStack := ⟨base + s.opened, s.calls.map (raised base)⟩

variable {base : Nat} {s : CallStack}

@[simp] theorem active_raise : (s.raise base).active = raised base s.active := by
  obtain ⟨opened, _ | ⟨call, outer⟩⟩ := s <;> rfl

@[simp] theorem depth_raise : (s.raise base).depth = s.depth := List.length_map _

@[simp] theorem isEmpty_raise : (s.raise base).isEmpty = s.isEmpty := by
  simp [isEmpty, raise]

theorem push_raise : (s.raise base).push = s.push.raise base := rfl

end CallStack

/-! ## Lines with other numbers -/

namespace Event

def renumber (f : Nat → Nat) : Event → Event
  | callStart type call => callStart type (f call)
  | callParams type call caller target value gas input =>
    callParams type (f call) caller target value gas input
  | callWithoutCode call => callWithoutCode (f call)
  | callFailure call gasLeft reason => callFailure (f call) gasLeft reason
  | callRevert call => callRevert (f call)
  | callEnd call gasLeft returned => callEnd (f call) gasLeft returned
  | gasChange call old new reason => gasChange (f call) old new reason
  | balanceChange call address old new reason => balanceChange (f call) address old new reason
  | nonceChange call address old new => nonceChange (f call) address old new
  | codeChange call address oldHash old newHash new =>
    codeChange (f call) address oldHash old newHash new
  | storageChange call address key old new => storageChange (f call) address key old new
  | newAccount call address => newAccount (f call) address
  | suicide call address suicided balance => suicide (f call) address suicided balance
  | keccak call hash preimage => keccak (f call) hash preimage
  | log call index l => log (f call) index l
  | e => e

/-- How many calls have been started after a line, from so many before it. -/
def count (e : Event) (n : Nat) : Nat := if e.restarts then 0 else n + e.started?.toList.length

variable {e : Event}

theorem renumber_raised_zero (e : Event) : e.renumber (raised 0) = e := by
  cases e <;> simp [renumber]

theorem started?_renumber (f : Nat → Nat) (e : Event) :
    (e.renumber f).started? = e.started?.map f := by
  cases e <;> rfl

/-- No call is open then, and none is told of. -/
theorem renumber_of_restarts (f : Nat → Nat) (h : e.restarts = true) : e.renumber f = e := by
  cases e <;> first | rfl | cases h

end Event

namespace Trace

/-- Raises the numbers of calls up to where they begin again. -/
def raise (base : Nat) : Trace → Trace
  | [] => []
  | e :: rest => if e.restarts then e :: rest else e.renumber (raised base) :: raise base rest

/-- No call starts before numbers begin again. -/
def startsLate : Trace → Bool
  | [] => true
  | e :: rest => e.restarts || (e.started?.isNone && startsLate rest)

/-- How many calls have been started since numbers began again last. -/
def leftover (t : Trace) : Nat := t.foldl (fun n e => e.count n) 0

variable {base : Nat} {a b : Trace}

theorem starts_append (a b : Trace) : (a ++ b).starts = a.starts ++ b.starts :=
  List.filterMap_append

theorem starts_renumber (f : Nat → Nat) (t : Trace) :
    starts (t.map (Event.renumber f)) = t.starts.map f := by
  rw [starts, starts, List.filterMap_map, List.map_filterMap]
  congr 1
  funext e
  exact e.started?_renumber f

theorem raise_zero (t : Trace) : t.raise 0 = t := by
  induction t with
  | nil => rfl
  | cons e rest ih =>
    rw [raise, Event.renumber_raised_zero, ih]
    exact ite_self _

theorem raise_append (h : ∀ e ∈ a, e.restarts = false) :
    (a ++ b).raise base = a.map (Event.renumber (raised base)) ++ b.raise base := by
  induction a with
  | nil => rfl
  | cons e a ih =>
    rw [List.cons_append, raise, h e (by simp), ih fun x hx => h x (by simp [hx])]
    rfl

end Trace

namespace Diagnostic

def renumber (f : Nat → Nat) : Diagnostic → Diagnostic
  | callStarted type call depth => callStarted type (f call) depth
  | callEnded call gasLeft => callEnded (f call) gasLeft
  | d => d

end Diagnostic

def Output.renumber (f : Nat → Nat) : Output → Output
  | line e => line (e.renumber f)
  | forward t => forward (t.map (Event.renumber f))
  | note d => note (d.renumber f)

theorem Output.trace_renumber (f : Nat → Nat) (o : Output) :
    (o.renumber f).trace = o.trace.map (Event.renumber f) := by
  cases o <;> rfl

/-! ## One operation -/

/-- The same recorder behind so many other calls; whether it announces final blocks when it is off
does not matter for what it does when it is on. -/
def Recorder.raise (base : Nat) (progress : Bool) (r : Recorder) : Recorder :=
  { r with progress, calls := r.calls.raise base }

def Step.raise (base : Nat) (progress : Bool) (s : Step) : Step :=
  ⟨s.recorder.raise base progress, s.output.map (.renumber (raised base)),
    s.calls.map (raised base)⟩

def Fault.raise (base : Nat) (progress : Bool) (f : Fault) : Fault :=
  { f with recorder := f.recorder.raise base progress }

theorem Step.trace_raise (base : Nat) (progress : Bool) (s : Step) :
    (s.raise base progress).trace = s.trace.map (Event.renumber (raised base)) := by
  rw [trace, trace, raise, List.flatMap_map, List.map_flatMap]
  congr 1
  funext o
  exact o.trace_renumber _

/-- The message of a fault tells how many calls are open, and not which. -/
theorem Fault.message_raise (base : Nat) (progress : Bool) (f : Fault) :
    (f.raise base progress).message = f.message := by
  have hdepth : (f.recorder.raise base progress).depth = f.recorder.depth := CallStack.depth_raise
  have hnumber : (f.recorder.raise base progress).blockNumber = f.recorder.blockNumber := rfl
  have hblock : (f.recorder.raise base progress).inBlock = f.recorder.inBlock := rfl
  dsimp only [message, raise]
  rw [hdepth, hnumber, hblock]
  dsimp only [Recorder.raise]

/-- The same outcome behind so many other calls, which may be more before than after. -/
def raiseOutcome (before after : Nat) (progress : Bool) : Except Fault Step → Except Fault Step
  | .ok s => .ok (s.raise after progress)
  | .error f => .error (f.raise before progress)

/-- Calls are numbered from 1 on again. -/
def Operation.restarts : Operation → Bool
  | startTransaction .. | endTransaction _ | failTransaction _ | cancelBlock .. => true
  | _ => false

/-- How many other calls still count after an operation. -/
def Operation.base (base : Nat) (op : Operation) : Nat := if op.restarts then 0 else base

namespace Recorder

variable {r : Recorder} {s : Step} {op : Operation} {base after : Nat} {progress : Bool}

theorem activeCall_raise : (r.raise base progress).activeCall = raised base r.activeCall :=
  CallStack.active_raise

theorem require_raise {c c' : Bool} (hc : c' = c) (v : Violation) {x y : Except Fault Step}
    (hxy : y = raiseOutcome base after progress x) :
    ((r.raise base progress).require c' v >>= fun _ => y) =
      raiseOutcome base after progress (r.require c v >>= fun _ => x) := by
  subst hc hxy
  cases c' <;> rfl

theorem bind_raise {x y : Except Fault Step} {f g : Step → Except Fault Step}
    (hxy : y = raiseOutcome base base progress x)
    (hnext : ∀ s, g (s.raise base progress) = raiseOutcome base base progress (f s)) :
    (y >>= g) = raiseOutcome base base progress (x >>= f) := by
  subst hxy
  cases x with
  | error fault => rfl
  | ok s => exact hnext s

theorem andThen_raise {f g : Recorder → Except Fault Step}
    (h : g (s.recorder.raise base progress) = raiseOutcome base base progress (f s.recorder)) :
    (s.raise base progress).andThen g = raiseOutcome base base progress (s.andThen f) := by
  simp only [Step.andThen]
  rw [show (s.raise base progress).recorder = s.recorder.raise base progress from rfl, h]
  cases f s.recorder with
  | error fault => rfl
  | ok t => simp [raiseOutcome, Step.raise, bind, Except.bind, pure, Except.pure]

theorem requireCall_raise (n : CallNote) {x y : Except Fault Step}
    (hxy : y = raiseOutcome base after progress x) :
    ((r.raise base progress).requireCall n >>= fun _ => y) =
      raiseOutcome base after progress (r.requireCall n >>= fun _ => x) :=
  require_raise (by simp [raise]) _ hxy

theorem requireNoCall_raise (n : Boundary) {x y : Except Fault Step}
    (hxy : y = raiseOutcome base after progress x) :
    ((r.raise base progress).requireNoCall n >>= fun _ => y) =
      raiseOutcome base after progress (r.requireNoCall n >>= fun _ => x) :=
  require_raise CallStack.isEmpty_raise _ hxy

theorem callFailed_raise (gasLeft : UInt64) (reason : String) :
    (r.raise base progress).callFailed gasLeft reason =
      raiseOutcome base base progress (r.callFailed gasLeft reason) := by
  refine requireCall_raise _ ?_
  rw [activeCall_raise]
  rfl

theorem callReverted_raise : (r.raise base progress).callReverted =
    raiseOutcome base base progress r.callReverted := by
  refine requireCall_raise _ ?_
  rw [activeCall_raise]
  rfl

theorem consumeGas_raise (old amount : UInt64) (reason : GasReason) :
    (r.raise base progress).consumeGas old amount reason =
      raiseOutcome base base progress (r.consumeGas old amount reason) := by
  unfold consumeGas
  rw [activeCall_raise]
  split
  · rfl
  · split <;> rfl

theorem endCall_raise (gasLeft : UInt64) (returned : Bytes) :
    (r.raise base progress).endCall gasLeft returned =
      raiseOutcome base base progress (r.endCall gasLeft returned) := by
  obtain ⟨enabled, announces, block, nextLog, inTransaction, opened, _ | ⟨call, outer⟩⟩ := r <;> rfl

theorem endFailedCall_raise (gasLeft : UInt64) (isRevert : Bool) (reason : String) :
    (r.raise base progress).endFailedCall gasLeft isRevert reason =
      raiseOutcome base base progress (r.endFailedCall gasLeft isRevert reason) := by
  refine bind_raise (callFailed_raise gasLeft reason) fun s => ?_
  cases isRevert with
  | true =>
    refine bind_raise (andThen_raise callReverted_raise) fun t => ?_
    exact andThen_raise (endCall_raise gasLeft [])
  | false =>
    refine bind_raise (andThen_raise (consumeGas_raise gasLeft gasLeft .failedExecution))
      fun t => ?_
    exact andThen_raise (endCall_raise 0 [])

/-- It comes to the same whether numbers are raised before an operation or after it. -/
theorem record_raise (r : Recorder) (base : Nat) (progress : Bool) (op : Operation) :
    (r.raise base progress).record op =
      raiseOutcome base (op.base base) progress (r.record op) := by
  -- guards ask only whether calls are open; behind them the innermost call gives its number
  cases op with
  | endCall gasLeft returned => exact endCall_raise ..
  | endFailedCall gasLeft isRevert reason => exact endFailedCall_raise ..
  | consumeGas old amount reason => exact consumeGas_raise ..
  | callFailed gasLeft reason => exact callFailed_raise ..
  | callReverted => exact callReverted_raise
  | callParams | callWithoutCode =>
    refine requireCall_raise _ ?_
    rw [activeCall_raise]
    rfl
  | cancelBlock | sender | failTransaction => exact require_raise rfl _ rfl
  | startBlock | finalizeBlock | endTransaction =>
    exact require_raise rfl _ (requireNoCall_raise _ rfl)
  | endBlock | startTransaction =>
    exact require_raise rfl _ (require_raise rfl _ (requireNoCall_raise _ rfl))
  | refundGas old amount =>
    simp only [record, refundGas, activeCall_raise]
    split <;> rfl
  | changeBalance address old new reason =>
    simp only [record, changeBalance, activeCall_raise]
    split <;> rfl
  | announce => rfl
  | startCall type =>
    simp only [record, startCall, raise, CallStack.push_raise, CallStack.active_raise,
      CallStack.depth_raise]
    rfl
  | changeNonce | changeCode | changeStorage | createAccount | suicide | keccak | log =>
    simp only [record, changeNonce, changeCode, changeStorage, createAccount, suicide, keccak, log,
      activeCall_raise]
    rfl

/-- An operation that lets numbers begin again puts out one line, which does so too. -/
theorem restarts_emission (r : Recorder) (op : Operation) :
    (op.restarts = false ∧ ∀ e ∈ r.emission op, e.restarts = false) ∨
      op.restarts = true ∧ ∃ e, r.emission op = [e] ∧ e.restarts = true := by
  cases op with
  | startTransaction | endTransaction | failTransaction | cancelBlock =>
    exact .inr ⟨rfl, _, rfl, rfl⟩
  | endFailedCall gasLeft isRevert reason =>
    refine .inl ⟨rfl, ?_⟩
    cases isRevert with
    | true => simp [emission, Event.restarts]
    | false => by_cases hgas : gasLeft = 0 <;> simp [emission, hgas, Event.restarts]
  | consumeGas | refundGas | changeBalance =>
    refine .inl ⟨rfl, ?_⟩
    simp only [emission]
    split <;> simp [Event.restarts]
  | _ => exact .inl ⟨rfl, by simp [emission, Event.restarts]⟩

/-- What follows an operation is raised by as much as still counts after it. -/
theorem raise_emission (r : Recorder) (op : Operation) (base : Nat) (rest : Trace) :
    Trace.raise base (r.emission op ++ rest) =
      (r.emission op).map (.renumber (raised (op.base base))) ++ rest.raise (op.base base) := by
  rcases restarts_emission r op with ⟨hop, hlines⟩ | ⟨hop, e, hline, he⟩
  · rw [Trace.raise_append hlines, Operation.base, hop]
    rfl
  · rw [hline, Operation.base, hop, if_pos rfl, Trace.raise_zero]
    simp [Trace.raise, he, Event.renumber_of_restarts]

/-! ## Runs -/

/-- The lines and the numbers of the calls that a run gives, or the message of its fault. -/
def answer (r : Recorder) (ops : List Operation) : Except String (Trace × List Nat) :=
  match r.run ops with
  | .ok s => .ok (s.trace, s.calls)
  | .error f => .error f.message

/-- The answer with other numbers. -/
def raiseAnswer (base : Nat) (a : Trace × List Nat) : Trace × List Nat :=
  (a.1.raise base, (a.1.raise base).starts)

theorem answer_of_error {f : Fault} (hon : r.enabled = true) (h : r.record op = .error f)
    (ops : List Operation) : r.answer (op :: ops) = .error f.message := by
  simp [answer, run, perform_enabled hon, h, bind, Except.bind]

theorem answer_of_ok (hon : r.enabled = true) (h : r.record op = .ok s) (ops : List Operation) :
    r.answer (op :: ops) =
      (s.recorder.answer ops).map fun a => (s.trace ++ a.1, s.calls ++ a.2) := by
  have hrun : r.run (op :: ops) = s.andThen (·.run ops) := by
    simp [run, perform_enabled hon, h, bind, Except.bind]
  rw [answer, answer, hrun, Step.andThen]
  cases s.recorder.run ops with
  | error f => rfl
  | ok t =>
    have htrace := Step.trace_followedBy s t
    simp only [bind, Except.bind, pure, Except.pure, Except.map]
    exact congrArg (fun lines => Except.ok (lines, _)) htrace

/-- Behind so many other calls, a recorder answers the same with numbers that are raised. -/
theorem answer_raise (hon : r.enabled = true) (base : Nat) (progress : Bool)
    (ops : List Operation) :
    (r.raise base progress).answer ops = (r.answer ops).map (raiseAnswer base) := by
  -- an operation may leave nothing to be raised after it, so the induction is for all `base`
  induction ops generalizing r base with
  | nil => rfl
  | cons op ops ih =>
    have honRaised : (r.raise base progress).enabled = true := hon
    cases hs : r.record op with
    | error f =>
      have hraise : (r.raise base progress).record op = .error (f.raise base progress) := by
        rw [record_raise, hs]
        rfl
      rw [answer_of_error hon hs, answer_of_error honRaised hraise, Fault.message_raise]
      rfl
    | ok s =>
      have hraise : (r.raise base progress).record op =
          .ok (s.raise (op.base base) progress) := by
        rw [record_raise, hs]
        rfl
      have hon' : s.recorder.enabled = true :=
        (enabled_perform ((perform_enabled hon op).trans hs)).trans hon
      rw [answer_of_ok hon hs, answer_of_ok honRaised hraise,
        show (s.raise (op.base base) progress).recorder =
          s.recorder.raise (op.base base) progress from rfl, ih hon']
      cases s.recorder.answer ops with
      | error message => rfl
      | ok a =>
        have hlines : Trace.raise base (s.trace ++ a.1) =
            (s.raise (op.base base) progress).trace ++ a.1.raise (op.base base) := by
          rw [trace_record hs, raise_emission, Step.trace_raise, trace_record hs]
        have hcalls : (s.raise (op.base base) progress).calls =
            (s.raise (op.base base) progress).trace.starts := by
          rw [Step.trace_raise, Trace.starts_renumber, ← calls_record hs]
          rfl
        simp only [Except.map, raiseAnswer, hlines, hcalls, Trace.starts_append]

end Recorder

end EvmTrace
