import EvmTrace.Event
import EvmTrace.Proofs.Fields

/-!
# Reading lines back

A trace of events whose fields are all encoded can be cut at its newlines and spaces, and each line
gives back its event. Only a word that is absent cannot be told from zero.
-/
namespace EvmTrace

/-- The kinds of lines whose fields all go through an encoder. -/
inductive LineKind
  | blockStart | blockFinal | transactionStart | sender | callStart | callParams
  | callWithoutCode | callRevert | callEnd | gasChange | balanceChange | nonceChange | codeChange
  | storageChange | suicide | newAccount | keccak | log
  deriving DecidableEq, Repr

open EvmTrace.Decimal (toNat?)
open EvmTrace.Field (readAbsent? readBalanceReason? readBytes? readCallType? readFlag?
  readGasReason? readHashes? readUInt64? readUInt8? readVector? readWord?)

namespace TransactionStart

/-- Fees that may be absent are absent if they are zero; everything else is as it was. -/
def canonical (t : TransactionStart) : TransactionStart :=
  { t with maxFee := Field.canonicalWord t.maxFee, maxTip := Field.canonicalWord t.maxTip }

/-- Reads the fields of the line that starts a transaction. -/
def read? : List Bytes → Option TransactionStart
  | [hash, recipient, value, v, r, s, gasLimit, gasPrice, nonce, input, accessList, maxFee,
      maxTip, type, index] => do
    return {
      hash := ← readVector? 32 hash
      recipient := ← readAbsent? (readVector? 20) recipient
      value := ← readWord? value
      v := ← readBytes? v
      r := ← readBytes? r
      s := ← readBytes? s
      gasLimit := ← readUInt64? gasLimit
      gasPrice := ← readWord? gasPrice
      nonce := ← readUInt64? nonce
      input := ← readBytes? input
      accessList := ← readBytes? accessList
      maxFee := ← readAbsent? readWord? maxFee
      maxTip := ← readAbsent? readWord? maxTip
      type := ← readUInt8? type
      index := ← readUInt64? index }
  | _ => none

theorem read?_fields (t : TransactionStart) :
    read? (t.fields.map Field.encode) = some t.canonical := by
  simp [fields, read?, canonical]

end TransactionStart

namespace LineKind

def all : List LineKind :=
  [blockStart, blockFinal, transactionStart, sender, callStart, callParams, callWithoutCode,
   callRevert, callEnd, gasChange, balanceChange, nonceChange, codeChange, storageChange, suicide,
   newAccount, keccak, log]

def word : LineKind → String
  | blockStart => "BEGIN_BLOCK"
  | blockFinal => "FINALIZE_BLOCK"
  | transactionStart => "BEGIN_APPLY_TRX"
  | sender => "TRX_FROM"
  | callStart => "EVM_RUN_CALL"
  | callParams => "EVM_PARAM"
  | callWithoutCode => "ACCOUNT_WITHOUT_CODE"
  | callRevert => "EVM_REVERTED"
  | callEnd => "EVM_END_CALL"
  | gasChange => "GAS_CHANGE"
  | balanceChange => "BALANCE_CHANGE"
  | nonceChange => "NONCE_CHANGE"
  | codeChange => "CODE_CHANGE"
  | storageChange => "STORAGE_CHANGE"
  | suicide => "SUICIDE_CHANGE"
  | newAccount => "CREATED_ACCOUNT"
  | keccak => "EVM_KECCAK"
  | log => "ADD_LOG"

def fieldCount : LineKind → Nat
  | blockStart | blockFinal | sender | callWithoutCode | callRevert => 1
  | callStart | newAccount => 2
  | callEnd | keccak => 3
  | gasChange | nonceChange | suicide => 4
  | balanceChange | storageChange | log => 5
  | codeChange => 6
  | callParams => 7
  | transactionStart => 15

def ofWord? (b : Bytes) : Option LineKind := all.find? fun k => Bytes.ofText k.word == b

/-- Reads the fields of a line of some kind. -/
def read? : LineKind → List Bytes → Option Event
  | blockStart, [number] => do return .blockStart (← readUInt64? number)
  | blockFinal, [number] => do return .blockFinal (← readUInt64? number)
  | transactionStart, fields => do return .transactionStart (← TransactionStart.read? fields)
  | sender, [address] => do return .sender (← readVector? 20 address)
  | callStart, [type, call] => do return .callStart (← readCallType? type) (← toNat? call)
  | callParams, [type, call, caller, target, value, gas, input] => do
    return .callParams (← readCallType? type) (← toNat? call) (← readVector? 20 caller)
      (← readVector? 20 target) (← readAbsent? readWord? value) (← readUInt64? gas)
      (← readBytes? input)
  | callWithoutCode, [call] => do return .callWithoutCode (← toNat? call)
  | callRevert, [call] => do return .callRevert (← toNat? call)
  | callEnd, [call, gasLeft, returned] => do
    return .callEnd (← toNat? call) (← readUInt64? gasLeft) (← readBytes? returned)
  | gasChange, [call, old, new, reason] => do
    return .gasChange (← toNat? call) (← readUInt64? old) (← readUInt64? new)
      (← readGasReason? reason)
  | balanceChange, [call, address, old, new, reason] => do
    return .balanceChange (← toNat? call) (← readVector? 20 address) (← readWord? old)
      (← readWord? new) (← readBalanceReason? reason)
  | nonceChange, [call, address, old, new] => do
    return .nonceChange (← toNat? call) (← readVector? 20 address) (← readUInt64? old)
      (← readUInt64? new)
  | codeChange, [call, address, oldHash, old, newHash, new] => do
    return .codeChange (← toNat? call) (← readVector? 20 address)
      (← readAbsent? (readVector? 32) oldHash) (← readBytes? old) (← readVector? 32 newHash)
      (← readBytes? new)
  | storageChange, [call, address, key, old, new] => do
    return .storageChange (← toNat? call) (← readVector? 20 address) (← readVector? 32 key)
      (← readVector? 32 old) (← readVector? 32 new)
  | suicide, [call, address, suicided, balance] => do
    return .suicide (← toNat? call) (← readVector? 20 address) (← readFlag? suicided)
      (← readWord? balance)
  | newAccount, [call, address] => do
    return .newAccount (← toNat? call) (← readVector? 20 address)
  | keccak, [call, hash, preimage] => do
    return .keccak (← toNat? call) (← readVector? 32 hash) (← readBytes? preimage)
  | log, [call, index, address, topics, data] => do
    return .log (← toNat? call) (← toNat? index)
      ⟨← readVector? 20 address, ← readHashes? topics, ← readBytes? data⟩
  | _, _ => none

end LineKind

namespace Event

/-- The kind of an event's line, if all its fields are encoded. -/
def lineKind? : Event → Option LineKind
  | blockStart .. => some .blockStart
  | blockFinal .. => some .blockFinal
  | transactionStart .. => some .transactionStart
  | sender .. => some .sender
  | callStart .. => some .callStart
  | callParams .. => some .callParams
  | callWithoutCode .. => some .callWithoutCode
  | callRevert .. => some .callRevert
  | callEnd .. => some .callEnd
  | gasChange .. => some .gasChange
  | balanceChange .. => some .balanceChange
  | nonceChange .. => some .nonceChange
  | codeChange .. => some .codeChange
  | storageChange .. => some .storageChange
  | suicide .. => some .suicide
  | newAccount .. => some .newAccount
  | keccak .. => some .keccak
  | log .. => some .log
  | announcement .. | blockEnd .. | blockCancel .. | transactionEnd .. | transactionFailure ..
  | callFailure .. => none

/-- Words that may be absent are absent if they are zero; everything else is as it was. -/
def canonical : Event → Event
  | transactionStart start => transactionStart start.canonical
  | callParams type call caller target value gas input =>
    callParams type call caller target (Field.canonicalWord value) gas input
  | e => e

variable {e : Event} {k : LineKind}

theorem kind_eq_word (h : e.lineKind? = some k) : e.kind = k.word := by
  cases e <;> cases h <;> rfl

theorem length_fields (h : e.lineKind? = some k) : e.fields.length = k.fieldCount := by
  cases e <;> cases h <;> rfl

theorem isEncoded_fields (h : e.lineKind? = some k) : ∀ f ∈ e.fields, f.isEncoded = true := by
  cases e <;> cases h <;> simp [fields, TransactionStart.fields, Field.isEncoded]

theorem read?_fields (h : e.lineKind? = some k) :
    k.read? (e.fields.map Field.encode) = some e.canonical := by
  cases e <;> cases h <;> simp [fields, LineKind.read?, TransactionStart.read?_fields, canonical]

/-- Writing the event leaves no trace of what is lost. -/
theorem line_canonical (e : Event) : e.canonical.line = e.line := by
  cases e with
  | transactionStart start =>
    simp [line, Line.ofFields, fields, TransactionStart.fields, kind, canonical,
      TransactionStart.canonical, Field.encode_canonicalWord]
  | callParams type call caller target value gas input =>
    simp [line, Line.ofFields, fields, kind, canonical, Field.encode_canonicalWord]
  | _ => rfl

/-- The marker, the kind and the fields, as they are written. -/
def words (e : Event) : List Bytes :=
  Bytes.ofText Protocol.marker :: Bytes.ofText e.kind :: e.fields.map Field.encode

theorem isWord_kind (e : Event) : Field.IsWord (Bytes.ofText e.kind) := by
  cases e <;> rw [kind] <;> exact ⟨by decide, by decide, by decide⟩

theorem isWord_words (h : e.lineKind? = some k) : ∀ w ∈ e.words, Field.IsWord w := by
  intro w hw
  simp only [words, List.mem_cons, List.mem_map] at hw
  rcases hw with rfl | rfl | ⟨f, hf, rfl⟩
  · exact ⟨by decide, by decide, by decide⟩
  · exact e.isWord_kind
  · exact Field.isWord_encode (isEncoded_fields h f hf)

/-- Reads the words of one line. -/
def decode? : List Bytes → Option Event
  | marker :: kind :: fields =>
    if marker = Bytes.ofText Protocol.marker then do (← LineKind.ofWord? kind).read? fields
    else none
  | _ => none

theorem ofWord?_word (k : LineKind) : LineKind.ofWord? (Bytes.ofText k.word) = some k := by
  cases k <;> decide

theorem decode?_words (h : e.lineKind? = some k) : decode? e.words = some e.canonical := by
  rw [words, decode?, if_pos rfl, kind_eq_word h, ofWord?_word]
  exact read?_fields h

end Event

namespace Line

/-- Cuts lines at their ends, and each line at its spaces. -/
def cut? (b : Bytes) : Option (List (List Bytes)) :=
  let lines := b.splitOn 10
  if lines.getLast? = some [] then some (lines.dropLast.map (·.splitOn 32)) else none

theorem ofEncoded_eq (marker : Bytes) (fields : List Bytes) :
    marker ++ fields.flatMap (32 :: ·) = [32].intercalate (marker :: fields) := by
  induction fields generalizing marker with
  | nil => simp
  | cons f rest ih => simp [← ih]

theorem newline_not_mem {words : List Bytes} (h : ∀ w ∈ words, 10 ∉ w) :
    10 ∉ [32].intercalate words := by
  cases words with
  | nil => simp
  | cons marker fields =>
    rw [← ofEncoded_eq]
    intro hmem
    rcases List.mem_append.mp hmem with hmarker | hfields
    · exact h marker (by simp) hmarker
    · obtain ⟨f, hf, hmem⟩ := List.mem_flatMap.mp hfields
      rcases List.mem_cons.mp hmem with hspace | hmem
      · cases hspace
      · exact h f (by simp [hf]) hmem

/-- The last line is ended like all others, so nothing stands behind it. -/
theorem flatMap_newline (lines : List Bytes) :
    lines.flatMap (· ++ [10]) = [10].intercalate (lines ++ [[]]) := by
  induction lines with
  | nil => simp
  | cons l rest ih =>
    rw [List.flatMap_cons, ih, List.cons_append, List.intercalate_cons_of_ne_nil (by simp)]

theorem splitOn_newline {lines : List Bytes} (h : ∀ l ∈ lines, 10 ∉ l) :
    (lines.flatMap (· ++ [10])).splitOn 10 = lines ++ [[]] := by
  rw [flatMap_newline]
  refine List.splitOn_intercalate 10 (fun l hl => ?_) (by simp)
  rcases List.mem_append.mp hl with hl | hl
  · exact h l hl
  · simp [List.mem_singleton.mp hl]

theorem cut?_flatMap {lines : List (List Bytes)} (hne : ∀ words ∈ lines, words ≠ [])
    (hwords : ∀ words ∈ lines, ∀ w ∈ words, Field.IsWord w) :
    cut? ((lines.map ([32].intercalate ·)).flatMap (· ++ [10])) = some lines := by
  have hclear : ∀ l ∈ lines.map ([32].intercalate ·), 10 ∉ l := by
    intro l hl
    obtain ⟨words, hmem, rfl⟩ := List.mem_map.mp hl
    exact newline_not_mem fun w hw => (hwords words hmem w hw).noNewline
  have hcut : (lines.map ([32].intercalate ·)).map (·.splitOn 32) = lines := by
    rw [List.map_map]
    refine (List.map_congr_left fun words hmem => ?_).trans (List.map_id lines)
    exact List.splitOn_intercalate 32 (fun w hw => (hwords words hmem w hw).noSpace)
      (hne words hmem)
  rw [cut?, splitOn_newline hclear]
  simp only [List.getLast?_concat, List.dropLast_concat, hcut, if_true]

end Line

namespace Trace

theorem bytes_eq (t : Trace) :
    t.bytes = ((t.map Event.words).map ([32].intercalate ·)).flatMap (· ++ [10]) := by
  have hline : Event.line = fun e => [32].intercalate e.words ++ [10] := by
    funext e
    rw [Event.words, ← Line.ofEncoded_eq]
    rfl
  rw [bytes, hline, List.map_map, List.flatMap_map]
  rfl

example : Trace.bytes [.blockStart 7, .callRevert 12] =
    Bytes.ofText "FIRE BEGIN_BLOCK 7\nFIRE EVM_REVERTED 12\n" := by decide

def decode? (b : Bytes) : Option Trace := do (← Line.cut? b).mapM Event.decode?

/-- The bytes of a trace of encoded events can be cut into the words that were written, and these
give back the events. -/
theorem decode?_bytes (t : Trace) (h : ∀ e ∈ t, e.lineKind?.isSome) :
    Line.cut? t.bytes = some (t.map Event.words) ∧
      decode? t.bytes = some (t.map Event.canonical) ∧
      Trace.bytes (t.map Event.canonical) = t.bytes ∧
      ∀ e ∈ t, ∃ k fields, e.lineKind? = some k ∧
        e.words = Bytes.ofText "FIRE" :: Bytes.ofText k.word :: fields ∧
        fields.length = k.fieldCount ∧ ∀ f ∈ fields, f ≠ [] := by
  have hkind {e : Event} (he : e ∈ t) : ∃ k, e.lineKind? = some k :=
    Option.isSome_iff_exists.mp (h e he)
  have hcut : Line.cut? t.bytes = some (t.map Event.words) := by
    rw [bytes_eq]
    refine Line.cut?_flatMap (fun words hw => ?_) (fun words hw => ?_)
    · obtain ⟨e, -, rfl⟩ := List.mem_map.mp hw
      simp [Event.words]
    · obtain ⟨e, he, rfl⟩ := List.mem_map.mp hw
      obtain ⟨k, hk⟩ := hkind he
      exact Event.isWord_words hk
  refine ⟨hcut, ?_, ?_, fun e he => ?_⟩
  · rw [decode?, hcut]
    refine mapM_map_of_forall fun e he => ?_
    obtain ⟨k, hk⟩ := hkind he
    exact Event.decode?_words hk
  · simp only [bytes, List.flatMap_map, Event.line_canonical]
  · obtain ⟨k, hk⟩ := hkind he
    refine ⟨k, e.fields.map Field.encode, hk, ?_, ?_, fun f hf => ?_⟩
    · rw [Event.words, Event.kind_eq_word hk]
      rfl
    · rw [List.length_map, Event.length_fields hk]
    · exact (Event.isWord_words hk f (by simp [Event.words, List.mem_map.mp hf])).ne_nil

/-- A call whose value is zero, and a log with two topics and no data. -/
def sampleTrace : Trace :=
  [.blockStart 7,
   .callParams .call 1 (.replicate 20 1) (.replicate 20 2) (some 0) 21000 [],
   .log 1 0 ⟨.replicate 20 3, [.replicate 32 4, .replicate 32 5], []⟩]

theorem decode?_bytes_sample :
    (∀ e ∈ sampleTrace, e.lineKind?.isSome) ∧
      Line.cut? sampleTrace.bytes = some (sampleTrace.map Event.words) ∧
      decode? sampleTrace.bytes = some (sampleTrace.map Event.canonical) :=
  have h : ∀ e ∈ sampleTrace, e.lineKind?.isSome := by decide
  ⟨h, (decode?_bytes sampleTrace h).1, (decode?_bytes sampleTrace h).2.1⟩

end Trace
end EvmTrace
