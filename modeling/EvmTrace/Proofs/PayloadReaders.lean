import EvmTrace.Event
import EvmTrace.Proofs.Lines
import EvmTrace.Proofs.Payloads
import EvmTrace.Proofs.Rendering

/-!
# Reading payloads back

A reader looks up each member of a payload by its key. It gets back all that was handed over about
a block or about the logs of a transaction, and what was absent is absent.
-/
namespace EvmTrace

/-! ## Hexadecimal numbers -/

namespace Hex

theorem value?_digitChar : ∀ n < 16, value? (Nat.digitChar n).toUInt8 = some n := by decide

theorem toNat?_append_singleton {b : Bytes} {c : UInt8} {n d : Nat} (hb : toNat? b = some n)
    (hc : value? c = some d) : toNat? (b ++ [c]) = some (n * 16 + d) := by
  rw [toNat?] at hb ⊢
  rw [List.foldlM_append, hb]
  simp [hc]

theorem toNat?_ofNat (n : Nat) : toNat? (ofNat n) = some n := by
  induction n using Nat.strongRecOn with
  | ind n ih =>
    have hlast (d : Nat) (hd : d < 16) : value? (Nat.digitChar d).toUInt8 = some d :=
      value?_digitChar d hd
    unfold ofNat
    by_cases hn : n < 16
    · rw [Nat.toDigits_of_lt_base hn]
      simpa using toNat?_append_singleton (b := []) rfl (hlast n hn)
    · have hrest := ih (n / 16) (by omega)
      have hmod : n % 16 < 16 := Nat.mod_lt n (by omega)
      rw [Nat.toDigits_of_base_le (by omega) (by omega), List.map_append]
      have hread := toNat?_append_singleton hrest (hlast (n % 16) hmod)
      rw [Nat.div_add_mod'] at hread
      exact hread

theorem ofNat_ne_nil (n : Nat) : ofNat n ≠ [] := by
  simp [ofNat, Nat.toDigits_ne_nil]

end Hex

namespace Payload

open Json (Nests arrange member? member?_arrange)

/-! ## Values -/

/-- The digits behind `0x` in a text. -/
def digits? : Json → Option Bytes
  | .text s =>
    match Bytes.ofText s with
    | 48 :: 120 :: digits => some digits
    | _ => none
  | _ => none

def readBytes? (v : Json) : Option Bytes := do Hex.decode? (← digits? v)

def readVector? (n : Nat) (v : Json) : Option (Vector UInt8 n) := do
  Field.readVector? n (← digits? v)

/-- A number has a digit, and lies below a bound. -/
def readQuantity? (bound : Nat) (v : Json) : Option Nat := do
  let digits ← digits? v
  let n ← Hex.toNat? digits
  if digits ≠ [] ∧ n < bound then some n else none

def readCount? (v : Json) : Option UInt64 := (readQuantity? UInt64.size v).map UInt64.ofNat

def readWord? (v : Json) : Option Word := (readQuantity? (Nat.pow 2 256) v).map (BitVec.ofNat 256)

def readNonce? (v : Json) : Option UInt64 :=
  (readVector? 8 v).map fun bytes => UInt64.ofNat (Bytes.toNat bytes.toList)

/-- `null` stands for what is absent. -/
def readNullable? {α : Type} (read : Json → Option α) : Json → Option (Option α)
  | .null => some none
  | v => (read v).map some

def readArray? {α : Type} (read : Json → Option α) : Json → Option (List α)
  | .array items => items.mapM read
  | _ => none

variable {n : Nat}

theorem digits?_bytes (b : Bytes) : digits? (bytes b) = some (Hex.encode b) := by
  rw [bytes, digits?, Bytes.ofText_ascii (Hex.isGraphic_prefixed b)]
  rfl

theorem digits?_quantity (n : Nat) : digits? (quantity n) = some (Hex.ofNat n) := by
  rw [quantity, digits?, Bytes.ofText_ascii (Hex.isGraphic_quantity n)]
  rfl

@[simp] theorem readBytes?_bytes (b : Bytes) : readBytes? (bytes b) = some b := by
  rw [readBytes?, digits?_bytes]
  exact Hex.decode?_encode b

@[simp] theorem readVector?_bytes (v : Vector UInt8 n) :
    readVector? n (bytes v.toList) = some v := by
  rw [readVector?, digits?_bytes]
  exact Field.readVector?_hex v

theorem readQuantity?_quantity {bound : Nat} (h : n < bound) :
    readQuantity? bound (quantity n) = some n := by
  rw [readQuantity?, digits?_quantity]
  simp [Hex.toNat?_ofNat, Hex.ofNat_ne_nil, h]

@[simp] theorem readCount?_quantity (n : UInt64) : readCount? (quantity n.toNat) = some n := by
  rw [readCount?, readQuantity?_quantity n.toNat_lt, Option.map_some, UInt64.ofNat_toNat]

@[simp] theorem readWord?_quantity (w : Word) : readWord? (quantity w.toNat) = some w := by
  rw [readWord?, readQuantity?_quantity w.isLt, Option.map_some, BitVec.ofNat_toNat,
    BitVec.setWidth_eq]

/-- The eight bytes of a nonce as a vector. -/
def nonceBytes (n : UInt64) : Vector UInt8 8 :=
  ⟨(Bytes.bigEndian 8 n.toNat).toArray, by simp [Bytes.length_bigEndian]⟩

@[simp] theorem readNonce?_nonce (n : UInt64) : readNonce? (nonce n) = some n := by
  have hbytes : nonce n = bytes (nonceBytes n).toList := by
    simp [nonce, nonceBytes, Vector.toList]
  have hvalue : Bytes.toNat (nonceBytes n).toList = n.toNat := by
    have hlt : n.toNat < Nat.pow 256 8 := n.toNat_lt
    simp only [nonceBytes, Vector.toList, Bytes.toNat_bigEndian]
    exact Nat.mod_eq_of_lt hlt
  rw [readNonce?, hbytes, readVector?_bytes, Option.map_some, hvalue, UInt64.ofNat_toNat]

@[simp] theorem arrange_bytes (b : Bytes) : (bytes b).arrange = bytes b := by
  rw [bytes, arrange]

@[simp] theorem arrange_quantity (n : Nat) : (quantity n).arrange = quantity n := by
  rw [quantity, arrange]

@[simp] theorem arrange_nonce (n : UInt64) : (nonce n).arrange = nonce n := arrange_bytes _

theorem readArray?_arrange {α : Type} {read : Json → Option α} {write : α → Json}
    (h : ∀ x, read (write x).arrange = some x) (xs : List α) :
    readArray? read (Json.array (xs.map write)).arrange = some xs := by
  have hread : (xs.map fun x => (write x).arrange).mapM read = some (xs.map id) :=
    mapM_map_of_forall fun x _ => h x
  rw [arrange, Json.arrangeItems_eq, List.map_map, readArray?]
  rw [List.map_id] at hread
  exact hread

theorem readNullable?_arrange (d : Option Word) :
    readNullable? readWord? (d.elim Json.null fun w => quantity w.toNat).arrange = some d := by
  cases d with
  | none => simp [arrange, readNullable?]
  | some w =>
    rw [Option.elim_some, arrange_quantity, quantity, readNullable?, ← quantity,
      readWord?_quantity]
    · rfl
    · simp

/-! ## Members -/

/-- Reads the member with a key, which must be there. -/
def readMember? {α : Type} (key : String) (read : Json → Option α) (v : Json) : Option α := do
  read (← member? key v)

/-- Reads the member with a key if it is there. -/
def readPossibleMember? {α : Type} (key : String) (read : Json → Option α) (v : Json) :
    Option (Option α) :=
  match member? key v with
  | none => some none
  | some value => (read value).map some

section Members

variable {α : Type} {read : Json → Option α} {v : Json} {key : String}

theorem readMember?_arrange (hkeys : v.keys.Nodup) :
    readMember? key read v.arrange = (member? key v).bind fun value => read value.arrange := by
  rw [readMember?, member?_arrange hkeys]
  cases member? key v <;> rfl

theorem readPossibleMember?_arrange (hkeys : v.keys.Nodup) :
    readPossibleMember? key read v.arrange =
      ((member? key v).map fun value => read value.arrange).elim (some none) (·.map some) := by
  rw [readPossibleMember?, member?_arrange hkeys]
  cases member? key v <;> rfl

end Members

def readHeader? (v : Json) : Option Header := do
  return {
    parentHash := ← readMember? "parentHash" (readVector? 32) v
    uncleHash := ← readMember? "sha3Uncles" (readVector? 32) v
    coinbase := ← readMember? "miner" (readVector? 20) v
    root := ← readMember? "stateRoot" (readVector? 32) v
    transactionRoot := ← readMember? "transactionsRoot" (readVector? 32) v
    receiptRoot := ← readMember? "receiptsRoot" (readVector? 32) v
    bloom := ← readMember? "logsBloom" (readVector? 256) v
    difficulty := ← readMember? "difficulty" readWord? v
    number := ← readMember? "number" readCount? v
    gasLimit := ← readMember? "gasLimit" readCount? v
    gasUsed := ← readMember? "gasUsed" readCount? v
    time := ← readMember? "timestamp" readCount? v
    extra := ← readMember? "extraData" readBytes? v
    mixDigest := ← readMember? "mixHash" (readVector? 32) v
    nonce := ← readMember? "nonce" readNonce? v
    baseFee := ← readPossibleMember? "baseFeePerGas" readWord? v
    hash := ← readMember? "hash" (readVector? 32) v }

theorem keys_header (h : Header) : (header h).keys.Nodup := by
  cases hfee : h.baseFee with
  | none => simp [header, Json.keys, hfee]
  | some fee => simp [header, Json.keys, hfee]

/-- No member takes the place of another, and the base fee alone may be missing. -/
theorem readHeader?_arrange (h : Header) : readHeader? (header h).arrange = some h := by
  simp only [readHeader?, readMember?_arrange (keys_header h),
    readPossibleMember?_arrange (keys_header h)]
  cases hfee : h.baseFee with
  | none =>
    simp [header, member?, Json.lookup_member, hfee]
    rw [← hfee]
  | some fee =>
    simp [header, member?, Json.lookup_member, hfee]
    rw [← hfee]

/-- What a payload tells about the end of a block. -/
structure EndedBlock where
  header : Header
  uncles : List Header
  totalDifficulty : Option Word
  deriving DecidableEq, Repr

def readEndedBlock? (v : Json) : Option EndedBlock := do
  return {
    header := ← readMember? "header" readHeader? v
    uncles := ← readMember? "uncles" (readArray? readHeader?) v
    totalDifficulty := ← readMember? "totalDifficulty" (readNullable? readWord?) v }

def readLog? (v : Json) : Option Log := do
  return {
    address := ← readMember? "address" (readVector? 20) v
    topics := ← readMember? "topics" (readArray? (readVector? 32)) v
    data := ← readMember? "data" readBytes? v }

def readLogs? : Json → Option (List Log) := readArray? readLog?

theorem readEndedBlock?_arrange (b : Block) (totalDifficulty : Option Word) :
    readEndedBlock? (endedBlock b totalDifficulty).arrange =
      some ⟨b.header, b.uncles, totalDifficulty⟩ := by
  have hkeys : (endedBlock b totalDifficulty).keys.Nodup := by simp [endedBlock, Json.keys]
  have huncles := readArray?_arrange readHeader?_arrange b.uncles
  simp only [readEndedBlock?, readMember?_arrange hkeys]
  simp [endedBlock, member?, Json.lookup_member, readHeader?_arrange, huncles,
    readNullable?_arrange]

theorem readLog?_arrange (l : Log) : readLog? (log l).arrange = some l := by
  have hkeys : (log l).keys.Nodup := by simp [log, Json.keys]
  have htopic (t : Hash) : readVector? 32 (bytes t.toList).arrange = some t := by simp
  have htopics := readArray?_arrange htopic l.topics
  simp only [readLog?, readMember?_arrange hkeys]
  simp [log, member?, Json.lookup_member, htopics]

/-! ## Payloads -/

theorem nests_bytes (b : Bytes) : Nests 0 (bytes b) := .text _

theorem nests_quantity (n : Nat) : Nests 0 (quantity n) := .text _

theorem nests_header (h : Header) : Nests 1 (header h) := by
  apply Nests.object
  simp only [List.forall_mem_append, List.forall_mem_cons, List.forall_mem_map]
  simp [nests_bytes, nests_quantity, nonce]

theorem nests_array {n : Nat} {α : Type} {write : α → Json} (h : ∀ x, Nests n (write x))
    (xs : List α) : Nests (n + 1) (.array (xs.map write)) :=
  .array (List.forall_mem_map.mpr fun x _ => h x)

theorem nests_endedBlock (b : Block) (totalDifficulty : Option Word) :
    Nests 3 (endedBlock b totalDifficulty) := by
  have hdifficulty : Nests 2 (totalDifficulty.elim Json.null fun d => quantity d.toNat) := by
    cases totalDifficulty with
    | none => exact .null
    | some d => exact (nests_quantity d.toNat).mono (by omega)
  apply Nests.object
  simp only [List.forall_mem_cons]
  exact ⟨(nests_header _).mono (by omega), nests_array nests_header b.uncles, hdifficulty, by simp⟩

theorem nests_log (l : Log) : Nests 2 (log l) := by
  have htopics : Nests 1 (.array (l.topics.map fun t => bytes t.toList)) :=
    nests_array (fun t => nests_bytes t.toList) l.topics
  apply Nests.object
  simp only [List.forall_mem_cons]
  exact ⟨(nests_bytes _).mono (by omega), (nests_bytes _).mono (by omega), htopics, by simp⟩

theorem nests_logs (ls : List Log) : Nests 3 (logs ls) := nests_array nests_log ls

/-- Reads the text of a payload. -/
def readText? {α : Type} (read : Json → Option α) (b : Bytes) : Option α := do
  read (← (Json.read b).toOption)

theorem readText?_render {α : Type} {read : Json → Option α} {v : Json} {x : α} {n : Nat}
    (hnests : Nests n v) (hn : n ≤ Json.depthLimit) (h : read v.arrange = some x) :
    readText? read v.render = some x := by
  rw [readText?, Json.read_render hnests hn]
  exact h

theorem readText?_endedBlock (b : Block) (totalDifficulty : Option Word) :
    readText? readEndedBlock? (endedBlock b totalDifficulty).render =
      some ⟨b.header, b.uncles, totalDifficulty⟩ :=
  readText?_render (nests_endedBlock b totalDifficulty) (by decide)
    (readEndedBlock?_arrange b totalDifficulty)

theorem readText?_logs (ls : List Log) : readText? readLogs? (logs ls).render = some ls :=
  readText?_render (nests_logs ls) (by decide) (readArray?_arrange readLog?_arrange ls)

/-! ## Lines -/

/-- Cutting the line of an event whose fields are words gives these words. -/
theorem cut?_line {e : Event} (hfields : ∀ f ∈ e.fields, Field.IsWord f.encode) :
    Line.cut? e.line = some [e.words] := by
  have hbytes : e.line = Trace.bytes [e] := by simp [Trace.bytes]
  have hwords : ∀ w ∈ e.words, Field.IsWord w := by
    rw [Event.words]
    simp only [List.forall_mem_cons, List.forall_mem_map]
    exact ⟨⟨by decide, by decide, by decide⟩, e.isWord_kind, hfields⟩
  rw [hbytes, Trace.bytes_eq]
  refine Line.cut?_flatMap (fun words hmem => ?_) (fun words hmem => ?_)
  · rw [List.mem_singleton.mp hmem, Event.words]
    simp
  · rw [List.mem_singleton.mp hmem]
    exact hwords

/-- The payload that tells of the end of a block is the last word of its line, made of printable
characters, and gives back the headers of the block and of its uncles and the total difficulty. The
payload that ends a transaction does the same for its logs. -/
theorem payloads_are_lossless :
    (∀ b totalDifficulty,
        (endedBlock b totalDifficulty).render.IsGraphic ∧
          Line.cut? (Event.blockEnd b totalDifficulty).line =
            some [[Bytes.ofText "FIRE", Bytes.ofText "END_BLOCK",
              Decimal.ofNat b.header.number.toNat, Decimal.ofNat b.size.toNat,
              (endedBlock b totalDifficulty).render]] ∧
          readText? readEndedBlock? (endedBlock b totalDifficulty).render =
            some ⟨b.header, b.uncles, totalDifficulty⟩) ∧
      ∀ r : Receipt,
        (logs r.logs).render.IsGraphic ∧
          Line.cut? (Event.transactionEnd r).line =
            some [[Bytes.ofText "FIRE", Bytes.ofText "END_APPLY_TRX",
              Decimal.ofNat r.gasUsed.toNat, Field.encodeBytes r.postState,
              Decimal.ofNat r.cumulativeGasUsed.toNat, Hex.encode r.bloom.toList,
              (logs r.logs).render]] ∧
          readText? readLogs? (logs r.logs).render = some r.logs := by
  refine ⟨fun b totalDifficulty => ⟨isGraphic_endedBlock b totalDifficulty, ?_,
    readText?_endedBlock b totalDifficulty⟩, fun r => ⟨isGraphic_logs r.logs, ?_,
    readText?_logs r.logs⟩⟩
  · refine cut?_line ?_
    rw [Event.fields]
    simp only [List.forall_mem_cons]
    exact ⟨Field.isWord_ofNat _, Field.isWord_ofNat _, isWord_endedBlock b totalDifficulty,
      by simp⟩
  · have hbloom : (Field.bytes r.bloom.toList).encode = Hex.encode r.bloom.toList :=
      Field.encodeBytes_of_ne_nil (Field.toList_ne_nil r.bloom)
    rw [cut?_line, Event.words, Event.fields]
    · simp only [List.map_cons, List.map_nil, hbloom]
      rfl
    · rw [Event.fields]
      simp only [List.forall_mem_cons]
      exact ⟨Field.isWord_ofNat _, Field.isWord_encodeBytes _, Field.isWord_ofNat _,
        Field.isWord_encodeBytes _, isWord_logs r.logs, by simp⟩

end Payload
end EvmTrace
