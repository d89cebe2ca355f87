import EvmTrace.Json.Reader
import EvmTrace.Settings

/-!
# Reading settings

Settings are an object whose unknown members are passed over, or an array of the values in the
order of the keys. What is missing keeps its default. The text is judged from the front, so the
first error decides, of whatever kind it is.
-/
namespace EvmTrace.Settings

open Json (ReadError)

/-- Reads the value of one key. A scalar is read to its end before its type is judged. -/
def readMember (s : Settings) (key : Key) (b : Bytes) : Except ReadError (Settings × Bytes) :=
  match Json.skipSpace b with
  | [] => .error .unfinished
  | c :: rest =>
    if (Json.Bracket.opens c).isSome then .error .mismatch
    else do
      let (value, rest) ← Json.readScalar c rest
      match s.set? key value with
      | some s => return (s, rest)
      | none => throw .mismatch

/-- Reads the members of an object; a key that was `seen` must not come again. -/
def readObject : (steps : Nat) → Bool → List Key → Settings → Bytes →
    Except ReadError (Settings × Bytes)
  | 0, _, _, _, _ => .error .malformed
  | steps + 1, isFirst, seen, s, b => do
    let (more, rest) ← Json.nextItem .object isFirst b
    if ¬ more then return (s, rest)
    let (name, rest) ← Json.readKey rest
    match Key.ofName? name with
    | some key =>
      if key ∈ seen then throw .mismatch
      let rest ← Json.readColon rest
      let (s, rest) ← readMember s key rest
      readObject steps false (key :: seen) s rest
    | none =>
      let rest ← Json.readColon rest
      let rest ← Json.skipValue rest
      readObject steps false seen s rest

/-- Reads the items of an array, one for each of the keys; only the end may follow the last. -/
def readArray : List Key → Bool → Settings → Bytes → Except ReadError (Settings × Bytes)
  | [], _, s, b =>
    match Json.skipSpace b with
    | [] => .error .unfinished
    | c :: rest => if c = Json.Bracket.array.close then .ok (s, rest) else .error .malformed
  | key :: keys, isFirst, s, b => do
    let (more, rest) ← Json.nextItem .array isFirst b
    if ¬ more then return (s, rest)
    let (s, rest) ← readMember s key rest
    readArray keys false s rest

def readValue (b : Bytes) : Except ReadError (Settings × Bytes) :=
  match Json.skipSpace b with
  | [] => .error .unfinished
  | c :: rest =>
    match Json.Bracket.opens c with
    | some .array => readArray Key.all true default rest
    | some .object => readObject (Json.stepLimit rest) true [] default rest
    | none => do
      let _ ← Json.readScalar c rest
      throw .mismatch

/-- The settings that a text gives. -/
def read (b : Bytes) : Except ReadError Settings := Json.finish (readValue b)

end EvmTrace.Settings
