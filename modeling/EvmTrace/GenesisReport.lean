import EvmTrace.Address
import EvmTrace.Block
import EvmTrace.Decimal
import EvmTrace.Diagnostic
import EvmTrace.Stream

/-!
# Genesis reports

When the genesis block that follows from the configuration is not the one the node has stored, the
operator gets both compared field by field. Values are compared as they are shown.
-/
namespace EvmTrace.GenesisReport

def introduction : List String :=
  ["There is a mismatch between Firehose genesis block and actual chain's stored genesis " ++
     "block, the actual genesis",
   "block's hash field extracted from the node's database does not fit with hash of genesis " ++
     "block generated",
   "from Firehose determined genesis config, you might need to provide the correct " ++
     "'genesis.json' file",
   "via --firehose-genesis-file",
   "",
   "Comparison of the actual Firehose recomputed genesis block <> expected node genesis block"]

/-- A field of a header under the name it is reported by. -/
structure Comparison where
  name : String
  shown : Header → Bytes

def comparisons : List Comparison :=
  [⟨"Hash", fun h => Hex.prefixed h.hash.toList⟩,
   ⟨"Number", fun h => Decimal.ofNat h.number.toNat⟩,
   ⟨"ParentHash", fun h => Hex.prefixed h.parentHash.toList⟩,
   ⟨"UncleHash", fun h => Hex.prefixed h.uncleHash.toList⟩,
   ⟨"Coinbase", fun h => Address.checksummed h.coinbase⟩,
   ⟨"Root", fun h => Hex.prefixed h.root.toList⟩,
   ⟨"TxHash", fun h => Hex.prefixed h.transactionRoot.toList⟩,
   ⟨"ReceiptHash", fun h => Hex.prefixed h.receiptRoot.toList⟩,
   ⟨"Bloom", fun h => Hex.encode h.bloom.toList⟩,
   ⟨"Difficulty", fun h => Decimal.ofNat h.difficulty.toNat⟩,
   ⟨"GasLimit", fun h => Decimal.ofNat h.gasLimit.toNat⟩,
   ⟨"GasUsed", fun h => Decimal.ofNat h.gasUsed.toNat⟩,
   ⟨"Time", fun h => Decimal.ofNat h.time.toNat⟩,
   ⟨"Extra", fun h => Hex.encode h.extra⟩,
   ⟨"MixDigest", fun h => Hex.prefixed h.mixDigest.toList⟩,
   ⟨"Nonce", fun h => Decimal.ofNat h.nonce.toNat⟩]

def sign (isEqual : Bool) : String := if isEqual then " == " else " != "

def Comparison.line (c : Comparison) (actual expected : Header) : Bytes :=
  let a := c.shown actual
  let e := c.shown expected
  Bytes.ofText c.name ++ Bytes.ofText " [(actual) " ++ a ++ Bytes.ofText (sign (a == e)) ++ e ++
    Bytes.ofText " (expected)]"

/-- The lines of a report, the last one empty. -/
def lines (actual expected : Header) : List Bytes :=
  introduction.map Bytes.ofText ++ comparisons.map (·.line actual expected) ++ [[]]

/-- Writes the report line by line and flushes the stream. One that breaks, or that cannot be
flushed, is only worth a diagnostic. -/
def write (actual expected : Header) (s : Stream) : Stream × List Diagnostic :=
  match s.send ((lines actual expected).map (· ++ [10])) with
  | (none, s) => (s, [])
  | (some e, s) => (s, [.reportFailed e])

end EvmTrace.GenesisReport
