import EvmTrace.Text.Combining
import EvmTrace.Text.Invisible
import EvmTrace.Text.Unassigned

/-!
# Quoted text

Text between double quotes, as messages show a value they were given. Every character without a
visible form of its own is escaped, so a message stays on its line.
-/
namespace EvmTrace.Text.Quoted

/-- Whether a character can be seen by itself. -/
def isVisible (c : Char) : Bool :=
  !combining.contains c && !invisible.contains c && !unassigned.contains c

/-- The quote and the backslash behind a backslash, the usual blanks by their letters, any other
character that cannot be seen by its code point. -/
def escape (c : Char) : String :=
  match c.toNat with
  | 0 => "\\0"
  | 9 => "\\t"
  | 10 => "\\n"
  | 13 => "\\r"
  | 34 => "\\\""
  | 92 => "\\\\"
  | n => if isVisible c then String.singleton c
    else "\\u\x7b" ++ String.ofList (Nat.toDigits 16 n) ++ "\x7d"

def encode (s : String) : String := "\"" ++ String.join (s.toList.map escape) ++ "\""

end EvmTrace.Text.Quoted
