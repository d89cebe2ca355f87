/-!
# Provenance of a genesis

Where the genesis that the node runs with came from.
-/
namespace EvmTrace

inductive Provenance
  /-- The node knows it from the chain that was chosen. -/
  | chainFlag
  /-- It was read from a file that the operator named. -/
  | file (path : String)
  | unset
  deriving DecidableEq, Repr

namespace Provenance

def describe : Provenance → String
  | chainFlag => "Geth Specific Flag (--<chain>)"
  | file _ => "Firehose Specific Flag (--firehose-genesis-file <file>)"
  | unset => "unset"

def path? : Provenance → Option String
  | file path => some path
  | _ => none

def isSet (p : Provenance) : Bool := p != unset

end Provenance
end EvmTrace
