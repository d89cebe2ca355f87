import EvmTrace.CallStack
import EvmTrace.CallType
import EvmTrace.Decimal
import EvmTrace.Files
import EvmTrace.Hex
import EvmTrace.Protocol
import EvmTrace.Provenance
import EvmTrace.Reason
import EvmTrace.Settings
import EvmTrace.Sink
import EvmTrace.Verbosity
import EvmTrace.Word

/-!
# Diagnostics

What the recorder tells about its own work, apart from the trace. Some diagnostics are told only
from a level of verbosity on, the others always.
-/
namespace EvmTrace

inductive Severity
  | error | warn | info | debug | trace
  deriving DecidableEq, Repr

def Severity.word : Severity → String
  | error => "error"
  | warn => "warn"
  | info => "info"
  | debug => "debug"
  | trace => "trace"

/-- Why a delivery was given up. -/
inductive Rejection
  /-- The last error of the sink. -/
  | sinkError (e : SinkError)
  /-- The sink never failed, but took too little. -/
  | shortWrite (unwritten : Nat)
  deriving DecidableEq, Repr

def Rejection.message : Rejection → String
  | sinkError e => e.message
  | shortWrite unwritten => "short write, " ++ toString unwritten ++ " bytes left unwritten"

inductive Diagnostic
  | blockStarted (number : UInt64) (hash : Hash)
  | blockEnded (number size : UInt64)
  | blockCancelled (number : UInt64) (reason : String)
  | transactionStarted (index : UInt64) (hash : Hash)
  | transactionFailed (reason : String)
  | transactionEnded (gasUsed : UInt64)
  | transactionFlushed (length : Nat)
  | transactionAbandoned (length : Nat)
  | blockFlushed (length : Nat)
  | callStarted (type : CallType) (call depth : Nat)
  | callEnded (call : Nat) (gasLeft : UInt64)
  | gasConsumed (old new : UInt64) (reason : GasReason)
  | balanceChanged (address : Address) (old new : Word) (reason : BalanceReason)
  | hashComputed (hash : Hash) (length : Nat)
  | deliveryFailed (reason : Rejection) (attempts unwritten : Nat) (fallback : String)
  | flushFailed (e : SinkError)
  | fallbackFailed (path : String) (e : FileError)
  | initializing
  | initialized (settings : Settings) (provenance : Provenance)
  | reportFailed (e : SinkError)
  deriving DecidableEq, Repr

namespace Diagnostic

def severity : Diagnostic → Severity
  | blockStarted .. | blockEnded .. | blockCancelled .. | initialized .. => .info
  | transactionStarted .. | transactionFailed _ | transactionEnded _ | transactionFlushed _
  | transactionAbandoned _ | blockFlushed _ | callStarted .. | callEnded .. | initializing =>
    .debug
  | gasConsumed .. | balanceChanged .. | hashComputed .. => .trace
  | deliveryFailed .. | fallbackFailed .. => .error
  | flushFailed _ | reportFailed _ => .warn

/-- The level of verbosity from which on it is told, if it is not told always. -/
def gate : Diagnostic → Option Verbosity
  | blockStarted .. | blockEnded .. | blockCancelled .. => some .info
  | transactionStarted .. | transactionFailed _ | transactionEnded _ | transactionFlushed _
  | transactionAbandoned _ | blockFlushed _ | callStarted .. | callEnded .. => some .debug
  | gasConsumed .. | balanceChanged .. => some .trace
  | hashComputed .. => some .full
  | deliveryFailed .. | flushFailed _ | fallbackFailed .. | initializing | initialized ..
  | reportFailed _ => none

def isTold (v : Verbosity) (d : Diagnostic) : Bool :=
  match d.gate with
  | some wanted => v.allows wanted
  | none => true

/-- Those of some diagnostics that are told, in order. -/
def told (v : Verbosity) (ds : List Diagnostic) : List Diagnostic := ds.filter (isTold v)

theorem told_append (v : Verbosity) (a b : List Diagnostic) :
    told v (a ++ b) = told v a ++ told v b := by
  simp [told]

def showHex (b : Bytes) : String := Bytes.ascii (Hex.encode b)

def message : Diagnostic → String
  | blockStarted number hash =>
    "start block (number=" ++ toString number ++ " hash=" ++ showHex hash.toList ++ ")"
  | blockEnded number size =>
    "end block (number=" ++ toString number ++ " size=" ++ toString size ++ ")"
  | blockCancelled number reason =>
    "cancel block (number=" ++ toString number ++ " err=" ++ reason ++ ")"
  | transactionStarted index hash =>
    "start transaction (index=" ++ toString index ++ " hash=" ++ showHex hash.toList ++ ")"
  | transactionFailed reason => "failed transaction (err=" ++ reason ++ ")"
  | transactionEnded gasUsed => "transaction ended (gas_used=" ++ toString gasUsed ++ ")"
  | transactionFlushed length => "flushing transaction (" ++ toString length ++ " bytes)"
  | transactionAbandoned length =>
    "abandoning transaction (" ++ toString length ++ " bytes discarded)"
  | blockFlushed length => "flushing block (" ++ toString length ++ " bytes)"
  | callStarted type call depth =>
    "start call (type=" ++ type.word ++ " index=" ++ toString call ++ " depth=" ++
      toString depth ++ ")"
  | callEnded call gasLeft =>
    "end call (index=" ++ toString call ++ " gas_left=" ++ toString gasLeft ++ ")"
  | gasConsumed old new reason =>
    "gas consume (old=" ++ toString old ++ " new=" ++ toString new ++ " reason=" ++
      reason.word ++ ")"
  | balanceChanged address old new reason =>
    "balance change (address=" ++ showHex address.toList ++ " old=" ++ toString old.toNat ++
      " new=" ++ toString new.toNat ++ " reason=" ++ reason.word ++ ")"
  | hashComputed hash length =>
    "keccak (hash=" ++ showHex hash.toList ++ " preimage_len=" ++ toString length ++ ")"
  | deliveryFailed reason .. => "trace sink rejected line: " ++ reason.message
  | flushFailed e => "flushing trace sink failed: " ++ e.message
  | fallbackFailed path e => "writing fallback log " ++ path ++ " failed: " ++ e.message
  | initializing => "initializing Firehose"
  | initialized .. => "Firehose initialized"
  | reportFailed e => "writing genesis comparison report failed: " ++ e.message

def showBool (b : Bool) : String := if b then "true" else "false"

/-- Named values beside the message. -/
def fields : Diagnostic → List (String × String)
  | deliveryFailed _ attempts unwritten fallback =>
    [("attempts", toString attempts), ("unwritten", toString unwritten), ("fallback", fallback)]
  | initialized settings provenance =>
    [("enabled", showBool settings.enabled),
     ("sync_instrumentation_enabled", showBool settings.syncInstrumentation),
     ("mining_enabled", showBool settings.mining),
     ("block_progress_enabled", showBool settings.blockProgress),
     ("genesis_configured", showBool provenance.isSet),
     ("genesis_provenance", provenance.describe),
     ("firehose_version", Protocol.instrumentationVersion),
     ("protocol_version", Protocol.version),
     ("node_version", settings.nodeVersion),
     ("chain_variant", settings.chainVariant)]
  | _ => []

end Diagnostic
end EvmTrace
