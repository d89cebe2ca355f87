import EvmTrace.Bytes

/-!
# Reading errors

Reading stops at the first byte that cannot go on, so an error says only what kind of byte it was.
-/
namespace EvmTrace.Json

inductive ReadError
  /-- The text ends inside a value. -/
  | unfinished
  /-- The text is not JSON, or a number is too large. -/
  | malformed
  /-- The text is JSON, but not a value of the wanted type. -/
  | mismatch
  deriving DecidableEq, Repr

end EvmTrace.Json
