import EvmTrace.Hex
import EvmTrace.Json.Error

/-!
# Reading JSON texts

A text is read byte by byte behind its opening quote. What the next byte means depends on the mode
alone: most bytes stand for themselves, a backslash opens an escape, and a code point beyond 16
bits is written as two escapes, a lead and a trail.
-/
namespace EvmTrace.Json.Text

inductive Mode
  | plain
  /-- Behind a backslash. -/
  | escape
  /-- Among the four digits of a code unit, newest first; a lead waits for its trail. -/
  | codeUnit (lead : Option Nat) (digits : Bytes)
  /-- Behind a lead. -/
  | trail (lead : Nat)
  /-- Behind a lead and a backslash. -/
  | trailEscape (lead : Nat)
  deriving DecidableEq, Repr

/-- The byte that a backslash and a letter stand for. -/
def escaped? (c : UInt8) : Option UInt8 :=
  if c = 34 ∨ c = 92 ∨ c = 47 then some c
  else if c = 98 then some 8
  else if c = 102 then some 12
  else if c = 110 then some 10
  else if c = 114 then some 13
  else if c = 116 then some 9
  else none

def isLead (n : Nat) : Bool := 0xD800 ≤ n && n ≤ 0xDBFF

def isTrail (n : Nat) : Bool := 0xDC00 ≤ n && n ≤ 0xDFFF

/-- The code point of a lead and a trail. -/
def join (lead trail : Nat) : Nat := 0x10000 + (lead - 0xD800) * 1024 + (trail - 0xDC00)

/-- The bytes of a code point, last one first. -/
def pushCodePoint (n : Nat) (out : Bytes) : Bytes :=
  (Bytes.ofText (String.singleton (Char.ofNat n))).reverse ++ out

/-- What a complete code unit does. -/
def finishUnit (lead : Option Nat) (n : Nat) (out : Bytes) : Except ReadError (Mode × Bytes) :=
  match lead with
  | some lead => if isTrail n then .ok (.plain, pushCodePoint (join lead n) out)
    else .error .malformed
  | none =>
    if isTrail n then .error .malformed
    else if isLead n then .ok (.trail n, out)
    else .ok (.plain, pushCodePoint n out)

/-- One byte that is not the closing quote; `out` holds the bytes of the text, last one first. -/
def step (mode : Mode) (out : Bytes) (c : UInt8) : Except ReadError (Mode × Bytes) :=
  match mode with
  | .plain =>
    if c = 92 then .ok (.escape, out)
    else if c < 32 then .error .malformed
    else .ok (.plain, c :: out)
  | .escape =>
    if c = 117 then .ok (.codeUnit none [], out)
    else match escaped? c with
      | some x => .ok (.plain, x :: out)
      | none => .error .malformed
  | .codeUnit lead digits =>
    if digits.length < 3 then .ok (.codeUnit lead (c :: digits), out)
    else match Hex.toNat? (c :: digits).reverse with
      | some n => finishUnit lead n out
      | none => .error .malformed
  | .trail lead => if c = 92 then .ok (.trailEscape lead, out) else .error .malformed
  | .trailEscape lead => if c = 117 then .ok (.codeUnit (some lead) [], out) else .error .malformed

/-- Reads up to the closing quote. -/
def scan : Mode → Bytes → Bytes → Except ReadError (Bytes × Bytes)
  | _, _, [] => .error .unfinished
  | mode, out, c :: rest =>
    if mode = .plain ∧ c = 34 then .ok (out.reverse, rest)
    else match step mode out c with
      | .ok (mode, out) => scan mode out rest
      | .error e => .error e

/-- Reads a text behind its opening quote. -/
def read (b : Bytes) : Except ReadError (String × Bytes) := do
  let (bytes, rest) ← scan .plain [] b
  match Bytes.text? bytes with
  | some s => return (s, rest)
  | none => throw .malformed

/-- One byte of a text that is passed over, where a lead needs no trail. -/
def skipStep (mode : Mode) (c : UInt8) : Except ReadError Mode :=
  match mode with
  | .codeUnit _ digits =>
    if digits.length < 3 then .ok (.codeUnit none (c :: digits))
    else if (Hex.toNat? (c :: digits).reverse).isSome then .ok .plain
    else .error .malformed
  | mode => (step mode [] c).map (·.1)

/-- Passes over a text behind its opening quote. -/
def skip : Mode → Bytes → Except ReadError Bytes
  | _, [] => .error .unfinished
  | mode, c :: rest =>
    if mode = .plain ∧ c = 34 then .ok rest
    else match skipStep mode c with
      | .ok mode => skip mode rest
      | .error e => .error e

end EvmTrace.Json.Text
