import EvmTrace.Bytes

/-!
# JSON values

Numbers are integers where the text denotes one that fits 64 bits, else doubles. The members of an
object are kept in a list: an order given by the writer, or increasing keys for what was read.
-/
namespace EvmTrace

inductive Json.Number
  | integer (n : Int)
  | real (x : Float)
  deriving Repr

inductive Json
  | null
  | bool (b : Bool)
  | number (n : Json.Number)
  | text (s : String)
  | array (items : List Json)
  | object (members : List (String × Json))
  deriving Repr

namespace Json

/-- Puts a member at its place among increasing keys; a member of the same key gives way. -/
def insertMember (key : String) (value : Json) :
    List (String × Json) → List (String × Json)
  | [] => [(key, value)]
  | (k, v) :: rest =>
    if key < k then (key, value) :: (k, v) :: rest
    else if key == k then (key, value) :: rest
    else (k, v) :: insertMember key value rest

def member? (key : String) : Json → Option Json
  | object members => members.lookup key
  | _ => none

end Json
end EvmTrace
