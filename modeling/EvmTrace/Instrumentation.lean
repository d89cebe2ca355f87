import EvmTrace.Configuration
import EvmTrace.Text.Quoted
import EvmTrace.Tracer

/-!
# Instrumentation

The configuration that a node sets up once. It makes the tracers, and hands out what there is only
one of: the first line of the trace and the buffers.
-/
namespace EvmTrace

structure Buffers where
  block : Buffer
  transaction : Buffer
  deriving DecidableEq, Repr

def Buffers.allocate : Buffers :=
  ⟨.withCapacity Buffer.blockCapacity, .withCapacity Buffer.transactionCapacity⟩

/-- Whether both buffers are empty and large enough for their unit of work. -/
def Buffers.isReady (b : Buffers) : Bool :=
  b.block.isEmpty && b.transaction.isEmpty && Buffer.blockCapacity ≤ b.block.capacity &&
    Buffer.transactionCapacity ≤ b.transaction.capacity

structure Instrumentation where
  settings : Settings
  /-- A genesis is kept as it is; only the node knows what it means. -/
  genesis : Option Json
  provenance : Provenance
  /-- Until they are taken, and only when enabled. -/
  buffers : Option Buffers
  /-- The node is still fetching blocks that are final already. -/
  isBehind : Bool
  /-- The first line was written. -/
  announced : Bool

namespace Instrumentation

inductive SetupError
  | genesisNotOpened (path : String) (e : FileError)
  | genesisNotDecoded (path : String) (cause : Cause)
  deriving DecidableEq, Repr

def SetupError.message : SetupError → String
  | genesisNotOpened path _ => "firehose open genesis file " ++ path
  | genesisNotDecoded path _ => "decode genesis file " ++ Text.Quoted.encode path

def SetupError.cause : SetupError → Cause
  | genesisNotOpened _ e => .file e
  | genesisNotDecoded _ cause => cause

/-- The genesis in a file. -/
def readGenesis (files : Files) (path : String) : Except SetupError Json :=
  match files.open? path with
  | .error e => .error (.genesisNotOpened path e)
  | .ok (some b) =>
    match Json.read b with
    | .ok genesis => .ok genesis
    | .error e => .error (.genesisNotDecoded path (.json e))
  | .ok none => .error (.genesisNotDecoded path (.file .isDirectory))

/-- A genesis that the node knows goes before the one in a file, which is then not even read. -/
def findGenesis (files : Files) (s : Settings) (known : Option Json) :
    Except SetupError (Option Json × Provenance) :=
  match known, s.genesisFile with
  | some genesis, _ => .ok (some genesis, .chainFlag)
  | none, some path => (readGenesis files path).map fun genesis => (some genesis, .file path)
  | none, none => .ok (none, .unset)

/-- Whether there is anything to tell about the settings. -/
def isActive (s : Settings) : Bool :=
  s.enabled || s.syncInstrumentation || s.mining || s.blockProgress

/-- Sets up the configuration; diagnostics are told even when that fails. -/
def setUp (files : Files) (s : Settings) (known : Option Json) :
    Except SetupError Instrumentation × List Diagnostic :=
  match findGenesis files s known with
  | .error e => (.error e, [.initializing])
  | .ok (genesis, provenance) =>
    (.ok ⟨s, genesis, provenance, if s.enabled then some .allocate else none, false, false⟩,
     .initializing :: if isActive s then [.initialized s provenance] else [])

def missingGenesisMessage : String :=
  "Firehose requires to have the genesis config to properly emit genesis block for this chain " ++
  "but it appears it was not set properly. Ensure you are using either chain's specific flag " ++
  "like '--mainnet' or if using a custom network, you can use '--firehose-genesis-file' flag to " ++
  "provide. Firehose is going to validate it against what your node database contains, so can " ++
  "be sure that it's going to match what the database have."

inductive MissingGenesis
  | missingGenesis
  deriving DecidableEq, Repr

def MissingGenesis.message : MissingGenesis → String
  | missingGenesis => missingGenesisMessage

def requireGenesis (i : Instrumentation) : Except MissingGenesis Json :=
  match i.genesis with
  | some genesis => .ok genesis
  | none => .error .missingGenesis

/-- The buffers, the first time they are asked for. -/
def takeBuffers (i : Instrumentation) : Option Buffers × Instrumentation :=
  (i.buffers, { i with buffers := none })

def setBehind (i : Instrumentation) (isBehind : Bool) : Instrumentation := { i with isBehind }

/-- Whether blocks received from other nodes are recorded. -/
def records (i : Instrumentation) : Bool := i.settings.enabled && i.settings.syncInstrumentation

/-- The tracer of the trace itself. The first one that records opens the trace. -/
def syncTracer (i : Instrumentation) (files : Files) (sink : Sink) :
    Tracer.Outcome × Instrumentation :=
  let r := Recorder.fresh i.records i.settings.blockProgress
  let t := Tracer.direct r ⟨sink, Writer.defaultFallback⟩
  if i.records && !i.announced then
    (t.take files (r.announce i.settings.nodeVersion Protocol.version i.settings.chainVariant),
     { i with announced := true })
  else (⟨t, files, []⟩, i)

/-- A draft over a buffer. -/
def speculativeDraft (i : Instrumentation) (b : Buffer) : Draft :=
  .onBuffer b i.settings.enabled false

end Instrumentation
end EvmTrace
