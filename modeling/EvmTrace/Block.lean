import EvmTrace.Word

/-!
# Blocks, logs and receipts

What the node hands over about a block and about the outcome of a transaction.
-/
namespace EvmTrace

structure Header where
  parentHash : Hash
  uncleHash : Hash
  coinbase : Address
  root : Hash
  transactionRoot : Hash
  receiptRoot : Hash
  bloom : Bloom
  difficulty : Word
  number : UInt64
  gasLimit : UInt64
  gasUsed : UInt64
  time : UInt64
  extra : Bytes
  mixDigest : Hash
  nonce : UInt64
  /-- Absent before the chain had a fee market, which is not the same as a fee of zero. -/
  baseFee : Option Word
  hash : Hash
  deriving DecidableEq, Repr

structure Block where
  header : Header
  uncles : List Header
  /-- Length of the encoded block in bytes. -/
  size : UInt64
  deriving DecidableEq, Repr

namespace Block

def ofHeader (header : Header) : Block := ⟨header, [], 0⟩

def withUncles (b : Block) (uncles : List Header) : Block := { b with uncles }

def withSize (b : Block) (size : UInt64) : Block := { b with size }

def number (b : Block) : UInt64 := b.header.number

def hash (b : Block) : Hash := b.header.hash

end Block

structure Log where
  address : Address
  topics : List Hash
  data : Bytes
  deriving DecidableEq, Repr

structure Receipt where
  gasUsed : UInt64
  cumulativeGasUsed : UInt64
  /-- State root after the transaction on old chains, empty since. -/
  postState : Bytes
  bloom : Bloom
  logs : List Log
  deriving DecidableEq, Repr

end EvmTrace
