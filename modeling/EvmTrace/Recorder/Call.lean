import EvmTrace.Recorder.Change

/-!
# Recording calls

Every started call is ended once, innermost first. A call that fails without reverting loses all
the gas it has left, and the trace shows the loss as a change of gas.
-/
namespace EvmTrace.Recorder

/-- Starts a call inside the innermost open one and gives its number. -/
def startCall (r : Recorder) (type : CallType) : Step :=
  let calls := r.calls.push
  ⟨{ r with calls },
    [.note (.callStarted type calls.active calls.depth), .line (.callStart type calls.active)],
    [calls.active]⟩

def callParams (r : Recorder) (type : CallType) (caller target : Address) (value : Option Word)
    (gas : UInt64) (input : Bytes) : Except Fault Step := do
  r.requireCall .params
  return .line r (.callParams type r.activeCall caller target value gas input)

def callWithoutCode (r : Recorder) : Except Fault Step := do
  r.requireCall .withoutCode
  return .line r (.callWithoutCode r.activeCall)

def callFailed (r : Recorder) (gasLeft : UInt64) (reason : String) : Except Fault Step := do
  r.requireCall .failure
  return .line r (.callFailure r.activeCall gasLeft reason)

def callReverted (r : Recorder) : Except Fault Step := do
  r.requireCall .revert
  return .line r (.callRevert r.activeCall)

def endCall (r : Recorder) (gasLeft : UInt64) (returned : Bytes) : Except Fault Step :=
  match r.calls.pop with
  | .ok (call, calls) =>
    .ok (.noted { r with calls } (.callEnded call gasLeft) (.callEnd call gasLeft returned))
  | .error e => .error ⟨.closing e, r⟩

/-- Ends the innermost call as failed. A revert hands back the gas that is left; any other failure
burns it. -/
def endFailedCall (r : Recorder) (gasLeft : UInt64) (isRevert : Bool) (reason : String) :
    Except Fault Step := do
  let failed ← r.callFailed gasLeft reason
  if isRevert then
    let reverted ← failed.andThen callReverted
    reverted.andThen (endCall · gasLeft [])
  else
    let burnt ← failed.andThen (consumeGas · gasLeft gasLeft .failedExecution)
    burnt.andThen (endCall · 0 [])

end EvmTrace.Recorder
