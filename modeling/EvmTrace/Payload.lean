import EvmTrace.Block
import EvmTrace.Hex
import EvmTrace.Json.Printer
import EvmTrace.Text.Located

/-!
# Payloads

Blocks and logs travel as JSON inside a single field. Bytes are written in hexadecimal behind `0x`,
numbers in as few digits, except the nonce, which always has sixteen.
-/
namespace EvmTrace.Payload

def bytes (b : Bytes) : Json := .text (Bytes.ascii (Hex.prefixed b))

def quantity (n : Nat) : Json := .text (Bytes.ascii (Hex.quantity n))

/-- All eight bytes of a nonce. -/
def nonce (n : UInt64) : Json := bytes (Bytes.bigEndian 8 n.toNat)

/-- A base fee that is absent has no member, unlike one of zero. -/
def header (h : Header) : Json :=
  .object <|
    [("parentHash", bytes h.parentHash.toList),
     ("sha3Uncles", bytes h.uncleHash.toList),
     ("miner", bytes h.coinbase.toList),
     ("stateRoot", bytes h.root.toList),
     ("transactionsRoot", bytes h.transactionRoot.toList),
     ("receiptsRoot", bytes h.receiptRoot.toList),
     ("logsBloom", bytes h.bloom.toList),
     ("difficulty", quantity h.difficulty.toNat),
     ("number", quantity h.number.toNat),
     ("gasLimit", quantity h.gasLimit.toNat),
     ("gasUsed", quantity h.gasUsed.toNat),
     ("timestamp", quantity h.time.toNat),
     ("extraData", bytes h.extra),
     ("mixHash", bytes h.mixDigest.toList),
     ("nonce", nonce h.nonce)]
    ++ h.baseFee.toList.map (fun fee => ("baseFeePerGas", quantity fee.toNat))
    ++ [("hash", bytes h.hash.toList)]

def endedBlock (b : Block) (totalDifficulty : Option Word) : Json :=
  .object
    [("header", header b.header),
     ("uncles", .array (b.uncles.map header)),
     ("totalDifficulty", totalDifficulty.elim .null fun d => quantity d.toNat)]

def log (l : Log) : Json :=
  .object
    [("address", bytes l.address.toList),
     ("data", bytes l.data),
     ("topics", .array (l.topics.map fun t => bytes t.toList))]

def logs (ls : List Log) : Json := .array (ls.map log)

/-- A value of the node that has no JSON form. -/
structure Unserializable where
  reason : Text.Located
  deriving DecidableEq, Repr

def Unserializable.message (e : Unserializable) : String :=
  "Firehose unable to serialize value to JSON: " ++ e.reason.render

/-- The text of a value that the node hands over, or why it has none. -/
def renderHost : Except String Json → Except Unserializable Bytes
  | .ok value => .ok value.render
  | .error reason => .error ⟨.ofText reason⟩

end EvmTrace.Payload
