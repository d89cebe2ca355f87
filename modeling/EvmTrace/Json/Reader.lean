import EvmTrace.Json.Number
import EvmTrace.Json.Text

/-!
# Reading JSON

`read` accepts one value, at most 127 brackets deep. `skip` passes over a value that nobody asked
for: it keeps a list of what is still needed, so it takes any depth, and it looks neither at the
size of a number nor at what a text denotes.
-/
namespace EvmTrace.Json

def isSpace (c : UInt8) : Bool := c == 32 || c == 10 || c == 9 || c == 13

def skipSpace (b : Bytes) : Bytes := b.dropWhile isSpace

/-- Reads the given bytes. -/
def expect : Bytes → Bytes → Except ReadError Bytes
  | [], b => .ok b
  | _ :: _, [] => .error .unfinished
  | w :: word, c :: rest => if w = c then expect word rest else .error .malformed

/-- Reads a value other than an array or object, given its first byte. -/
def readScalar (c : UInt8) (rest : Bytes) : Except ReadError (Json × Bytes) := do
  if c = 110 then return (null, ← expect [117, 108, 108] rest)
  else if c = 116 then return (bool true, ← expect [114, 117, 101] rest)
  else if c = 102 then return (bool false, ← expect [97, 108, 115, 101] rest)
  else if c = 34 then
    let (s, rest) ← Text.read rest
    return (text s, rest)
  else if c = 45 then
    let (n, rest) ← readNumber true rest
    return (number n, rest)
  else if Decimal.isDigit c then
    let (n, rest) ← readNumber false (c :: rest)
    return (number n, rest)
  else throw .malformed

inductive Bracket
  | array | object
  deriving DecidableEq, Repr

def Bracket.opens (c : UInt8) : Option Bracket :=
  if c = 91 then some .array else if c = 123 then some .object else none

def Bracket.close : Bracket → UInt8
  | array => 93
  | object => 125

/-- Behind an opening bracket or an item: where the next item starts, or `false` and what follows
the closing bracket. -/
def nextItem (bracket : Bracket) (isFirst : Bool) (b : Bytes) :
    Except ReadError (Bool × Bytes) :=
  match skipSpace b with
  | [] => .error .unfinished
  | c :: rest =>
    if c = bracket.close then .ok (false, rest)
    else if isFirst then .ok (true, c :: rest)
    else if c = 44 then .ok (true, rest)
    else .error .malformed

/-- Reads the key of a member; the colon is left. -/
def readKey (b : Bytes) : Except ReadError (String × Bytes) :=
  match skipSpace b with
  | [] => .error .unfinished
  | c :: rest => if c = 34 then Text.read rest else .error .malformed

def readColon (b : Bytes) : Except ReadError Bytes := expect [58] (skipSpace b)

/-- The brackets that may be open inside each other. -/
def depthLimit : Nat := 127

mutual

/-- Reads a value with so many more brackets allowed. Every call takes one of the `steps`. -/
def readValue : (steps depth : Nat) → Bytes → Except ReadError (Json × Bytes)
  | 0, _, _ => .error .malformed
  | steps + 1, depth, b =>
    match skipSpace b with
    | [] => .error .unfinished
    | c :: rest =>
      match Bracket.opens c, depth with
      | none, _ => readScalar c rest
      | some _, 0 => .error .malformed
      | some .array, depth + 1 => do
        let (items, rest) ← readItems steps depth true rest
        return (array items, rest)
      | some .object, depth + 1 => do
        let (members, rest) ← readMembers steps depth true [] rest
        return (object members, rest)

def readItems : (steps depth : Nat) → Bool → Bytes → Except ReadError (List Json × Bytes)
  | 0, _, _, _ => .error .malformed
  | steps + 1, depth, isFirst, b => do
    let (more, rest) ← nextItem .array isFirst b
    if more then
      let (item, rest) ← readValue steps depth rest
      let (items, rest) ← readItems steps depth false rest
      return (item :: items, rest)
    else return ([], rest)

/-- Of two members with one key the later one stays. -/
def readMembers : (steps depth : Nat) → Bool → List (String × Json) → Bytes →
    Except ReadError (List (String × Json) × Bytes)
  | 0, _, _, _, _ => .error .malformed
  | steps + 1, depth, isFirst, members, b => do
    let (more, rest) ← nextItem .object isFirst b
    if more then
      let (key, rest) ← readKey rest
      let rest ← readColon rest
      let (value, rest) ← readValue steps depth rest
      readMembers steps depth false (insertMember key value members) rest
    else return (members, rest)

end

/-- Enough steps for every value in a text of this length. -/
def stepLimit (b : Bytes) : Nat := 4 * b.length + 4

/-- Only blanks may follow a value. -/
def finish {α : Type} : Except ReadError (α × Bytes) → Except ReadError α
  | .ok (x, rest) => if (skipSpace rest).isEmpty then .ok x else .error .malformed
  | .error e => .error e

/-- The value that a text denotes. -/
def read (b : Bytes) : Except ReadError Json := finish (readValue (stepLimit b) depthLimit b)

/-- Passes over a value other than an array or object, given its first byte. -/
def skipScalar (c : UInt8) (rest : Bytes) : Except ReadError Bytes :=
  if c = 110 then expect [117, 108, 108] rest
  else if c = 116 then expect [114, 117, 101] rest
  else if c = 102 then expect [97, 108, 115, 101] rest
  else if c = 34 then Text.skip .plain rest
  else if c = 45 then skipNumber rest
  else if Decimal.isDigit c then skipNumber (c :: rest)
  else .error .malformed

/-- What has to come next in a text that is passed over. -/
inductive Need
  | value
  /-- Behind an opening bracket. -/
  | itemOrClose (bracket : Bracket)
  | item (bracket : Bracket)
  /-- Behind an item. -/
  | commaOrClose (bracket : Bracket)
  deriving DecidableEq, Repr

/-- Meets one need given the byte that is next, and says what is needed in its place. -/
def Need.meet : Need → UInt8 → Bytes → Except ReadError (List Need × Bytes)
  | .value, c, rest =>
    match Bracket.opens c with
    | some bracket => .ok ([.itemOrClose bracket], rest)
    | none => (skipScalar c rest).map ([], ·)
  | .itemOrClose bracket, c, rest =>
    if c = bracket.close then .ok ([], rest) else .ok ([.item bracket], c :: rest)
  | .item .array, c, rest => .ok ([.value, .commaOrClose .array], c :: rest)
  | .item .object, c, rest => do
    if c ≠ 34 then throw .malformed
    let rest ← Text.skip .plain rest
    let rest ← readColon rest
    return ([.value, .commaOrClose .object], rest)
  | .commaOrClose bracket, c, rest =>
    if c = bracket.close then .ok ([], rest)
    else if c = 44 then .ok ([.item bracket], rest)
    else .error .malformed

def skipNeeds : (steps : Nat) → List Need → Bytes → Except ReadError Bytes
  | _, [], b => .ok b
  | 0, _ :: _, _ => .error .malformed
  | steps + 1, need :: needs, b =>
    match skipSpace b with
    | [] => .error .unfinished
    | c :: rest =>
      match need.meet c rest with
      | .ok (more, rest) => skipNeeds steps (more ++ needs) rest
      | .error e => .error e

/-- Passes over one value. -/
def skipValue (b : Bytes) : Except ReadError Bytes := skipNeeds (stepLimit b) [.value] b

end EvmTrace.Json
