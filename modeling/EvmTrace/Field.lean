import EvmTrace.CallType
import EvmTrace.Decimal
import EvmTrace.Hex
import EvmTrace.Json.Printer
import EvmTrace.Protocol
import EvmTrace.Reason
import EvmTrace.Word

/-!
# Fields

A line is the marker followed by fields, each behind a single space. Bytes are written in
hexadecimal without `0x`, and what is absent or empty as the sentinel, so no field but a text can
be empty or hold a space.
-/
namespace EvmTrace

inductive Field
  /-- A text that is written as it is. -/
  | text (s : String)
  | count (n : Nat)
  | flag (b : Bool)
  | address (a : Address)
  /-- The receiver of a transaction, absent when it creates a contract. -/
  | recipient (a : Option Address)
  | hash (h : Hash)
  | hashes (hs : List Hash)
  | bytes (b : Bytes)
  /-- A word in as few bytes as it takes. -/
  | word (w : Option Word)
  | gasReason (r : GasReason)
  | balanceReason (r : BalanceReason)
  | callType (t : CallType)
  /-- Bytes as diagnostics show them, where the sentinel is not used. -/
  | view (b : Bytes)
  | json (value : Json)
  deriving Repr

namespace Field

def sentinel : Bytes := Bytes.ofText Protocol.sentinel

/-- Hexadecimal, with the sentinel in place of nothing. -/
def encodeBytes (b : Bytes) : Bytes := if b.isEmpty then sentinel else Hex.encodeBlocks b

/-- Hashes with commas in between, with the sentinel in place of nothing. -/
def encodeHashes : List Hash → Bytes
  | [] => sentinel
  | [h] => Hex.encodeBlocks h.toList
  | h :: rest => Hex.encodeBlocks h.toList ++ 44 :: encodeHashes rest

def encodeWord (w : Word) : Bytes := encodeBytes (Bytes.trimZeros w.toBytes)

def encode : Field → Bytes
  | text s => Bytes.ofText s
  | count n => Decimal.ofNat n
  | flag b => Bytes.ofText (if b then "true" else "false")
  | address a => Hex.encodeBlocks a.toList
  | recipient none => sentinel
  | recipient (some a) => Hex.encodeBlocks a.toList
  | hash h => Hex.encodeBlocks h.toList
  | hashes hs => encodeHashes hs
  | bytes b => encodeBytes b
  | word none => sentinel
  | word (some w) => encodeWord w
  | gasReason r => Bytes.ofText r.word
  | balanceReason r => Bytes.ofText r.word
  | callType t => Bytes.ofText t.word
  | view b => Hex.encode b
  | json value => value.render

/-- The pieces that hashes are written in. -/
def hashPieces : List Hash → List Bytes
  | [] => [sentinel]
  | [h] => Hex.encodedBlocks h.toList
  | h :: rest => Hex.encodedBlocks h.toList ++ [44] :: hashPieces rest

/-- The pieces that a field is written in: long bytes go block by block, and hashes one by one with
the commas in between. -/
def pieces : Field → List Bytes
  | hashes hs => hashPieces hs
  | bytes b => if b.isEmpty then [sentinel] else Hex.encodedBlocks b
  | field => [field.encode]

theorem flatten_hashPieces (hs : List Hash) : (hashPieces hs).flatten = encodeHashes hs := by
  fun_induction hashPieces hs with
  | case1 => simp [encodeHashes]
  | case2 h => simp [encodeHashes, Hex.encodeBlocks]
  | case3 h rest _ ih => simp [encodeHashes, Hex.encodeBlocks, ih]

theorem flatten_pieces (f : Field) : f.pieces.flatten = f.encode := by
  cases f with
  | hashes hs => exact flatten_hashPieces hs
  | bytes b =>
    simp only [pieces, encode, encodeBytes, Hex.encodeBlocks]
    split <;> simp
  | _ => simp [pieces]

end Field

namespace Line

/-- The line of some fields that are encoded already. -/
def ofEncoded (fields : List Bytes) : Bytes :=
  Bytes.ofText Protocol.marker ++ fields.flatMap (32 :: ·) ++ [10]

def ofFields (fields : List Field) : Bytes := ofEncoded (fields.map Field.encode)

/-- The pieces that a line is written in. -/
def pieces (fields : List Field) : List Bytes :=
  Bytes.ofText Protocol.marker :: fields.flatMap (fun f => [32] :: f.pieces) ++ [[10]]

theorem flatten_pieces (fields : List Field) : (pieces fields).flatten = ofFields fields := by
  have h : (fields.flatMap fun f => [32] :: f.pieces).flatten =
      (fields.map Field.encode).flatMap (32 :: ·) := by
    induction fields with
    | nil => rfl
    | cons f rest ih => simp [ih, Field.flatten_pieces]
  simp [pieces, ofFields, ofEncoded, h]

/-- A field whose own encoding breaks down, in a line or by itself. -/
inductive Breakdown
  | inLine | alone
  deriving DecidableEq, Repr

def Breakdown.message : Breakdown → String
  | inLine => "Firehose failed formatting trace field, field encoders must be total"
  | alone => "a Display implementation returned an error unexpectedly: Error"

/-- The pieces of the line of fields that a host hands over, of which one may have no encoding. -/
def hostPieces (fields : List (Option Field)) : Except Breakdown (List Bytes) :=
  match fields.mapM id with
  | some fields => .ok (pieces fields)
  | none => .error .inLine

/-- The texts of fields that a host hands over one by one. -/
def hostTexts (fields : List (Option Field)) : Except Breakdown (List Bytes) :=
  match fields.mapM id with
  | some fields => .ok (fields.map Field.encode)
  | none => .error .alone

end Line
end EvmTrace
