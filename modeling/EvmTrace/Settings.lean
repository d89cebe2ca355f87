import EvmTrace.Json.Printer
import EvmTrace.Protocol

/-!
# Settings

What an operator can set. In JSON, settings are an object with one member for each key; a path that
is not set has no member.
-/
namespace EvmTrace

structure Settings where
  /-- Master switch of the recording. -/
  enabled : Bool
  /-- Record blocks that are received from other nodes. -/
  syncInstrumentation : Bool
  mining : Bool
  /-- Announce final blocks even when nothing is recorded. -/
  blockProgress : Bool
  genesisFile : Option String
  /-- Standard output when absent. -/
  outputPath : Option String
  nodeVersion : String
  chainVariant : String
  deriving DecidableEq, Repr

namespace Settings

def default : Settings where
  enabled := false
  syncInstrumentation := true
  mining := false
  blockProgress := false
  genesisFile := none
  outputPath := none
  nodeVersion := ""
  chainVariant := Protocol.defaultChainVariant

inductive Key
  | enabled | syncInstrumentation | mining | blockProgress | genesisFile | outputPath
  | nodeVersion | chainVariant
  deriving DecidableEq, Repr

namespace Key

def all : List Key :=
  [enabled, syncInstrumentation, mining, blockProgress, genesisFile, outputPath, nodeVersion,
   chainVariant]

def name : Key → String
  | enabled => "enabled"
  | syncInstrumentation => "sync_instrumentation_enabled"
  | mining => "mining_enabled"
  | blockProgress => "block_progress_enabled"
  | genesisFile => "genesis_file"
  | outputPath => "output_path"
  | nodeVersion => "node_version"
  | chainVariant => "chain_variant"

def ofName? (name : String) : Option Key := all.find? (·.name == name)

theorem mem_all (k : Key) : k ∈ all := by cases k <;> decide

theorem ofName?_name (k : Key) : ofName? k.name = some k := by cases k <;> rfl

end Key

/-- The member of a key, if it has one. -/
def get? (s : Settings) : Key → Option Json
  | .enabled => some (.bool s.enabled)
  | .syncInstrumentation => some (.bool s.syncInstrumentation)
  | .mining => some (.bool s.mining)
  | .blockProgress => some (.bool s.blockProgress)
  | .genesisFile => s.genesisFile.map .text
  | .outputPath => s.outputPath.map .text
  | .nodeVersion => some (.text s.nodeVersion)
  | .chainVariant => some (.text s.chainVariant)

/-- The settings with one member replaced, unless the value has the wrong type. -/
def set? (s : Settings) : Key → Json → Option Settings
  | .enabled, .bool b => some { s with enabled := b }
  | .syncInstrumentation, .bool b => some { s with syncInstrumentation := b }
  | .mining, .bool b => some { s with mining := b }
  | .blockProgress, .bool b => some { s with blockProgress := b }
  | .genesisFile, .text path => some { s with genesisFile := some path }
  | .genesisFile, .null => some { s with genesisFile := none }
  | .outputPath, .text path => some { s with outputPath := some path }
  | .outputPath, .null => some { s with outputPath := none }
  | .nodeVersion, .text version => some { s with nodeVersion := version }
  | .chainVariant, .text variant => some { s with chainVariant := variant }
  | _, _ => none

def toJson (s : Settings) : Json :=
  .object (Key.all.filterMap fun k => (s.get? k).map (k.name, ·))

def render (s : Settings) : Bytes := s.toJson.render

end Settings
end EvmTrace
