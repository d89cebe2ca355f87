/-!
# Protocol constants

The words that both ends of the trace stream agree on.
-/
namespace EvmTrace.Protocol

/-- First word of every line. -/
def marker : String := "FIRE"

/-- Stands for a value that is absent or has no bytes, since no field may be empty. -/
def sentinel : String := "."

/-- Version of the line format, announced in the first line of a stream. -/
def version : String := "2.2"

def instrumentationVersion : String := "0.1.0"

/-- The chain variant announced when the node names none. -/
def defaultChainVariant : String := "geth"

end EvmTrace.Protocol
