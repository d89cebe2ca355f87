import EvmTrace.Proofs.Emission
import EvmTrace.Proofs.Ensemble
import EvmTrace.Proofs.Lines
import EvmTrace.Proofs.Payloads

/-!
# One line for each event

Whoever knows how the lines of each kind are laid out can cut a trace at its newlines, and each
line at its spaces, and finds one line for each event. Nothing in the lines keeps a text in its
place, though: this goes as far as the texts that come from outside fit in by themselves.
-/
namespace EvmTrace

theorem not_mem_of_mem_splitOn {α : Type} [BEq α] [LawfulBEq α] {x : α} {l piece : List α}
    (h : piece ∈ l.splitOn x) : x ∉ piece := by
  induction l generalizing piece with
  | nil => simp_all
  | cons y l ih =>
    rw [List.splitOn_cons_eq_if_modifyHead] at h
    split at h
    · rcases List.mem_cons.mp h with rfl | h
      · simp
      · exact ih h
    · next hy =>
      obtain ⟨first, rest, hsplit⟩ := List.exists_cons_of_ne_nil (List.splitOn_ne_nil x l)
      rw [hsplit, List.modifyHead_cons, List.mem_cons] at h
      rcases h with rfl | h
      · have hfirst : x ∉ first := ih (by simp [hsplit])
        have hne : x ≠ y := fun hxy => hy (by simp [hxy])
        simp [hfirst, hne]
      · exact ih (by simp [hsplit, h])

/-- Cutting undoes joining, piece by piece. -/
theorem splitOn_intercalate_flatMap {α : Type} [BEq α] [LawfulBEq α] (x : α)
    {pieces : List (List α)} (h : pieces ≠ []) :
    ([x].intercalate pieces).splitOn x = pieces.flatMap (·.splitOn x) := by
  induction pieces with
  | nil => exact absurd rfl h
  | cons first rest ih =>
    by_cases hrest : rest = []
    · simp [hrest]
    · rw [List.intercalate_cons_of_ne_nil hrest, List.append_assoc, List.singleton_append,
        List.splitOn_append_cons_self, ih hrest, List.flatMap_cons]

theorem flatMap_splitOn_of_forall {α : Type} [BEq α] [LawfulBEq α] {x : α} {pieces : List (List α)}
    (h : ∀ piece ∈ pieces, x ∉ piece) : pieces.flatMap (·.splitOn x) = pieces := by
  induction pieces with
  | nil => rfl
  | cons first rest ih =>
    rw [List.flatMap_cons, ih fun piece hpiece => h piece (by simp [hpiece]),
      List.splitOn_eq_singleton (h first (by simp)), List.singleton_append]

/-! ## Layouts -/

/-- How the lines of one kind go on behind their kind. -/
structure Layout where
  kind : String
  fieldCount : Nat
  /-- The last field is a text, which goes on to the end of the line, spaces included. -/
  endsInText : Bool
  deriving DecidableEq, Repr

namespace Layout

def all : List Layout :=
  [⟨"INIT", 3, true⟩, ⟨"BEGIN_BLOCK", 1, false⟩, ⟨"FINALIZE_BLOCK", 1, false⟩,
   ⟨"END_BLOCK", 3, false⟩, ⟨"CANCEL_BLOCK", 2, true⟩, ⟨"BEGIN_APPLY_TRX", 15, false⟩,
   ⟨"TRX_FROM", 1, false⟩, ⟨"END_APPLY_TRX", 5, false⟩, ⟨"FAILED_APPLY_TRX", 1, true⟩,
   ⟨"EVM_RUN_CALL", 2, false⟩, ⟨"EVM_PARAM", 7, false⟩, ⟨"ACCOUNT_WITHOUT_CODE", 1, false⟩,
   ⟨"EVM_CALL_FAILED", 3, true⟩, ⟨"EVM_REVERTED", 1, false⟩, ⟨"EVM_END_CALL", 3, false⟩,
   ⟨"GAS_CHANGE", 4, false⟩, ⟨"BALANCE_CHANGE", 5, false⟩, ⟨"NONCE_CHANGE", 4, false⟩,
   ⟨"CODE_CHANGE", 6, false⟩, ⟨"STORAGE_CHANGE", 5, false⟩, ⟨"CREATED_ACCOUNT", 2, false⟩,
   ⟨"SUICIDE_CHANGE", 4, false⟩, ⟨"EVM_KECCAK", 3, false⟩, ⟨"ADD_LOG", 5, false⟩]

def ofKind? (b : Bytes) : Option Layout := all.find? fun l => Bytes.ofText l.kind == b

/-- Puts the words of a text together again. -/
def join (l : Layout) (words : List Bytes) : List Bytes :=
  if l.endsInText then
    words.take (l.fieldCount - 1) ++ [[32].intercalate (words.drop (l.fieldCount - 1))]
  else words

/-- The fields that the words of a line make up. None is missing and none is empty. -/
def fields? (l : Layout) (words : List Bytes) : Option (List Bytes) :=
  if (l.join words).length = l.fieldCount ∧ [] ∉ l.join words then some (l.join words) else none

variable {l : Layout} {inner words fields : List Bytes} {last : Bytes}

theorem fields?_eq_some : l.fields? words = some fields ↔
    l.join words = fields ∧ fields.length = l.fieldCount ∧ [] ∉ fields := by
  unfold fields?
  constructor
  · intro h
    split at h
    · next hfields =>
      obtain rfl := Option.some.inj h
      exact ⟨rfl, hfields⟩
    · cases h
  · rintro ⟨rfl, hfields⟩
    rw [if_pos hfields]

/-- Fields are told apart by the spaces between them if and only if none but a text at the end has
spaces of its own. -/
theorem join_flatMap (hcount : inner.length + 1 = l.fieldCount) :
    l.join ((inner ++ [last]).flatMap (·.splitOn 32)) = inner ++ [last] ↔
      (∀ w ∈ inner, 32 ∉ w) ∧ (l.endsInText = false → 32 ∉ last) := by
  have hwords {w : Bytes} (hw : w ∈ (inner ++ [last]).flatMap (·.splitOn 32)) : 32 ∉ w := by
    obtain ⟨field, -, hw⟩ := List.mem_flatMap.mp hw
    exact not_mem_of_mem_splitOn hw
  constructor
  · intro h
    cases htext : l.endsInText with
    | true =>
      rw [join, if_pos htext] at h
      obtain ⟨htake, -⟩ := List.append_inj' h rfl
      exact ⟨fun w hw => hwords (List.mem_of_mem_take (htake ▸ hw)), fun hfalse => by cases hfalse⟩
    | false =>
      rw [join, if_neg (by simp [htext])] at h
      rw [h] at hwords
      exact ⟨fun w hw => hwords (by simp [hw]), fun _ => hwords (by simp)⟩
  · rintro ⟨hinner, hlast⟩
    have hflat : (inner ++ [last]).flatMap (·.splitOn 32) = inner ++ last.splitOn 32 := by
      rw [List.flatMap_append, flatMap_splitOn_of_forall hinner]
      simp
    rw [hflat, join]
    cases htext : l.endsInText with
    | true => simp [← hcount, List.intercalate_splitOn]
    | false => simp [List.splitOn_eq_singleton (hlast htext)]

end Layout

/-! ## Reading lines -/

namespace Line

/-- Reads a line up to its newline: the marker, the kind and the fields. -/
def readBody? (b : Bytes) : Option (List Bytes) :=
  match b.splitOn 32 with
  | marker :: kind :: words =>
    if marker = Bytes.ofText Protocol.marker then do
      let fields ← (← Layout.ofKind? kind).fields? words
      return marker :: kind :: fields
    else none
  | _ => none

/-- Reads lines that are all ended by a newline. -/
def readAll? (b : Bytes) : Option (List (List Bytes)) :=
  let lines := b.splitOn 10
  if lines.getLast? = some [] then lines.dropLast.mapM readBody? else none

end Line

/-- Fits into a place that goes on to the end of the line. -/
structure Field.IsText (b : Bytes) : Prop where
  ne_nil : b ≠ []
  noNewline : 10 ∉ b

theorem Field.IsWord.isText {b : Bytes} (h : Field.IsWord b) : Field.IsText b :=
  ⟨h.ne_nil, h.noNewline⟩

namespace Event

variable {e : Event}

/-- The line without its newline. -/
def body (e : Event) : Bytes := [32].intercalate e.words

theorem line_eq (e : Event) : e.line = e.body ++ [10] := by
  rw [body, words, ← Line.ofEncoded_eq]
  rfl

/-- Its line is read as one line, and as its own. -/
def IsLine (e : Event) : Prop := Line.readAll? e.line = some [e.words]

/-- Its last field is a text. -/
def endsInText : Event → Bool
  | announcement .. | blockCancel .. | transactionFailure _ | callFailure .. => true
  | _ => false

theorem exists_layout (e : Event) : ∃ l, Layout.ofKind? (Bytes.ofText e.kind) = some l ∧
    l.fieldCount = e.fields.length ∧ l.endsInText = e.endsInText := by
  cases e <;> exact ⟨_, rfl, rfl, rfl⟩

/-- The texts that come from outside fit into their places. -/
def TextsFit : Event → Prop
  | announcement protocol chain node =>
    Field.IsWord (Bytes.ofText protocol) ∧ Field.IsWord (Bytes.ofText chain) ∧
      Field.IsText (Bytes.ofText node)
  | blockCancel _ reason | transactionFailure reason | callFailure _ _ reason =>
    Field.IsText (Bytes.ofText reason)
  | _ => True

/-- The fields in front of the last one, and the last one. -/
structure Parts (e : Event) (inner : List Bytes) (last : Bytes) : Prop where
  fields : e.fields.map Field.encode = inner ++ [last]
  fit : e.TextsFit ↔
    (∀ w ∈ inner, Field.IsWord w) ∧ Field.IsText last ∧ (e.endsInText = false → Field.IsWord last)

theorem parts_of_isWord (h : ∀ f ∈ e.fields, Field.IsWord f.encode) (hne : e.fields ≠ [])
    (hfit : e.TextsFit) : ∃ inner last, e.Parts inner last := by
  have hwords : ∀ w ∈ e.fields.map Field.encode, Field.IsWord w := by simpa using h
  obtain ⟨inner, last, hfields⟩ :
      ∃ inner last, e.fields.map Field.encode = inner ++ [last] :=
    ⟨_, _, (List.dropLast_concat_getLast (by simpa using hne)).symm⟩
  rw [hfields] at hwords
  have hlast : Field.IsWord last := hwords last (by simp)
  exact ⟨inner, last, hfields, fun _ => ⟨fun w hw => hwords w (by simp [hw]), hlast.isText,
    fun _ => hlast⟩, fun _ => hfit⟩

theorem exists_parts (e : Event) : ∃ inner last, e.Parts inner last := by
  have hcount (n : Nat) : Field.IsWord (Decimal.ofNat n) := Field.isWord_ofNat n
  cases e with
  | announcement protocol chain node =>
    exact ⟨[_, _], _, rfl, by simp [TextsFit, endsInText, Field.encode, and_assoc]⟩
  | blockCancel number reason =>
    exact ⟨[_], _, rfl, by simp [TextsFit, endsInText, Field.encode, hcount]⟩
  | transactionFailure reason => exact ⟨[], _, rfl, by simp [TextsFit, endsInText, Field.encode]⟩
  | callFailure call gasLeft reason =>
    exact ⟨[_, _], _, rfl, by simp [TextsFit, endsInText, Field.encode, hcount]⟩
  | blockEnd block totalDifficulty =>
    refine parts_of_isWord ?_ (by simp [fields]) trivial
    simpa [fields, Field.encode, hcount] using Payload.isWord_endedBlock block totalDifficulty
  | transactionEnd receipt =>
    refine parts_of_isWord ?_ (by simp [fields]) trivial
    simpa [fields, Field.encode, hcount] using ⟨Field.isWord_encodeBytes _,
      Field.isWord_encodeBytes _, Payload.isWord_logs receipt.logs⟩
  | _ =>
    exact parts_of_isWord (fun f hf => Field.isWord_encode (isEncoded_fields rfl f hf))
      (by simp [fields, TransactionStart.fields]) trivial

theorem newline_mem_body : 10 ∈ e.body ↔ ∃ w ∈ e.fields.map Field.encode, 10 ∈ w := by
  have hmarker : 10 ∉ Bytes.ofText Protocol.marker := by decide
  rw [body, words, ← Line.ofEncoded_eq]
  simp [List.mem_flatMap, hmarker, e.isWord_kind.noNewline]

theorem splitOn_body (e : Event) : e.body.splitOn 32 =
    Bytes.ofText Protocol.marker :: Bytes.ofText e.kind ::
      (e.fields.map Field.encode).flatMap (·.splitOn 32) := by
  have hmarker : 32 ∉ Bytes.ofText Protocol.marker := by decide
  rw [body, words, splitOn_intercalate_flatMap 32 (by simp), List.flatMap_cons, List.flatMap_cons,
    List.splitOn_eq_singleton hmarker, List.splitOn_eq_singleton e.isWord_kind.noSpace]
  rfl

theorem Parts.readBody? {inner : List Bytes} {last : Bytes} (h : e.Parts inner last) :
    Line.readBody? e.body = some e.words ↔ (∀ w ∈ inner, w ≠ [] ∧ 32 ∉ w) ∧ last ≠ [] ∧
      (e.endsInText = false → 32 ∉ last) := by
  obtain ⟨l, hkind, hcount, htext⟩ := e.exists_layout
  have hcount : inner.length + 1 = l.fieldCount := by
    rw [hcount, ← List.length_map Field.encode, h.fields, List.length_append]
    rfl
  have hread : Line.readBody? e.body = some e.words ↔
      l.fields? ((inner ++ [last]).flatMap (·.splitOn 32)) = some (inner ++ [last]) := by
    rw [Line.readBody?, splitOn_body, words, h.fields]
    generalize (inner ++ [last]).flatMap (·.splitOn 32) = words
    simp [hkind, Option.bind_eq_some_iff]
  rw [hread, Layout.fields?_eq_some, Layout.join_flatMap hcount, ← htext]
  constructor
  · rintro ⟨⟨hinner, hlast⟩, -, hnil⟩
    refine ⟨fun w hw => ⟨?_, hinner w hw⟩, ?_, hlast⟩
    · rintro rfl
      exact hnil (by simp [hw])
    · rintro rfl
      exact hnil (by simp)
  · rintro ⟨hinner, hne, hlast⟩
    refine ⟨⟨fun w hw => (hinner w hw).2, hlast⟩, by simp [hcount], ?_⟩
    simpa [hne.symm] using fun hmem => (hinner [] hmem).1 rfl

theorem isLine_iff_read : e.IsLine ↔ 10 ∉ e.body ∧ Line.readBody? e.body = some e.words := by
  have hlines : Line.readAll? e.line = (e.body.splitOn 10).mapM Line.readBody? := by
    rw [Line.readAll?, line_eq, List.splitOn_append_cons_self]
    simp
  rw [IsLine, hlines]
  by_cases hmem : 10 ∈ e.body
  · -- a newline of its own makes two lines at least
    obtain ⟨a, b, hbody⟩ := List.append_of_mem hmem
    obtain ⟨x, xs, hx⟩ := List.exists_cons_of_ne_nil (List.splitOn_ne_nil 10 a)
    obtain ⟨y, ys, hy⟩ := List.exists_cons_of_ne_nil (l := xs ++ b.splitOn 10)
      (by simp [List.splitOn_ne_nil])
    have hsplit : e.body.splitOn 10 = x :: y :: ys := by
      rw [hbody, List.splitOn_append_cons_self, hx, List.cons_append, hy]
    simp [hsplit, hmem, List.mapM_cons, Option.bind_eq_some_iff]
  · simp [List.splitOn_eq_singleton hmem, hmem, List.mapM_cons, Option.bind_eq_some_iff]

/-- The line of an event tells the event if and only if the texts in it fit. -/
theorem isLine_iff : e.IsLine ↔ e.TextsFit := by
  obtain ⟨inner, last, h⟩ := e.exists_parts
  rw [isLine_iff_read, h.readBody?, h.fit, newline_mem_body, h.fields]
  constructor
  · rintro ⟨hnewline, hinner, hne, hlast⟩
    have hclear : ∀ w ∈ inner ++ [last], 10 ∉ w := fun w hw hmem => hnewline ⟨w, hw, hmem⟩
    have hlastClear : 10 ∉ last := hclear last (by simp)
    exact ⟨fun w hw => ⟨(hinner w hw).1, (hinner w hw).2, hclear w (by simp [hw])⟩,
      ⟨hne, hlastClear⟩, fun htext => ⟨hne, hlast htext, hlastClear⟩⟩
  · rintro ⟨hinner, hlast, hword⟩
    refine ⟨?_, fun w hw => ⟨(hinner w hw).ne_nil, (hinner w hw).noSpace⟩, hlast.ne_nil,
      fun htext => (hword htext).noSpace⟩
    rintro ⟨w, hw, hmem⟩
    rcases List.mem_append.mp hw with hw | hw
    · exact (hinner w hw).noNewline hmem
    · exact hlast.noNewline (List.mem_singleton.mp hw ▸ hmem)

end Event

theorem Trace.readAll?_bytes {t : Trace} (h : ∀ e ∈ t, e.IsLine) :
    Line.readAll? t.bytes = some (t.map Event.words) := by
  have hread {e : Event} (he : e ∈ t) := Event.isLine_iff_read.mp (h e he)
  have hbytes : t.bytes = (t.map Event.body).flatMap (· ++ [10]) := by
    rw [List.flatMap_map]
    exact congrArg t.flatMap (funext Event.line_eq)
  have hlines : t.bytes.splitOn 10 = t.map Event.body ++ [[]] := by
    rw [hbytes]
    refine Line.splitOn_newline fun b hb => ?_
    obtain ⟨e, he, rfl⟩ := List.mem_map.mp hb
    exact (hread he).1
  rw [Line.readAll?, hlines]
  simp only [List.getLast?_concat, List.dropLast_concat, if_true]
  exact mapM_map_of_forall fun e he => (hread he).2

/-! ## Operations -/

/-- The texts that the operation is given fit into their places. -/
def Operation.TextsFit : Operation → Prop
  | .announce node protocol chain =>
    Field.IsWord (Bytes.ofText protocol) ∧ Field.IsWord (Bytes.ofText chain) ∧
      Field.IsText (Bytes.ofText node)
  | .cancelBlock _ reason | .failTransaction reason | .callFailed _ reason
  | .endFailedCall _ _ reason => Field.IsText (Bytes.ofText reason)
  | _ => True

namespace Recorder

variable {r : Recorder} {s : Step} {op : Operation}

/-- An operation puts out one line for each event if and only if its texts fit. -/
theorem isLine_record (h : r.record op = .ok s) :
    (∀ x ∈ s.trace, x.IsLine) ↔ op.TextsFit := by
  have htexts : (∀ x ∈ r.emission op, x.TextsFit) ↔ op.TextsFit := by
    cases op with
    | endFailedCall gasLeft isRevert reason =>
      cases isRevert with
      | true => simp [emission, Event.TextsFit, Operation.TextsFit]
      | false =>
        by_cases hgas : gasLeft = 0 <;> simp [emission, hgas, Event.TextsFit, Operation.TextsFit]
    | consumeGas | refundGas | changeBalance =>
      simp only [emission]
      split <;> simp [Event.TextsFit, Operation.TextsFit]
    | _ => simp [emission, Event.TextsFit, Operation.TextsFit]
  rw [trace_record h, ← htexts]
  simp only [Event.isLine_iff]

theorem isLine_perform (hfit : op.TextsFit) (h : r.perform op = .ok s) :
    ∀ x ∈ s.trace, x.IsLine := by
  cases henabled : r.enabled with
  | false =>
    rw [perform_disabled r op henabled] at h
    obtain rfl := Except.ok.inj h
    rcases r.trace_ignore op with htrace | ⟨number, htrace⟩
    · simp [htrace]
    · have hfinal : (Event.blockFinal number).IsLine := Event.isLine_iff.mpr trivial
      simpa [htrace] using hfinal
  | true =>
    rw [perform_enabled henabled] at h
    exact (isLine_record h).mpr hfit

end Recorder

/-! ## Ensembles -/

namespace Ensemble

variable {ι : Type} [DecidableEq ι] {e e' : Ensemble ι} {t : Trace} {m : Option ι} {k : ι}
  {s : Step} {entry : Entry ι} {a : Act ι} {P : Event → Prop}

/-- Something that holds of all lines there are. -/
def Throughout (P : Event → Prop) (e : Ensemble ι) (t : Trace) : Prop :=
  ∀ m, ∀ x ∈ e.lines t m, P x

theorem Throughout.take (h : Throughout P e t) (hs : ∀ x ∈ s.trace, P x) :
    Throughout P (e.take m s) (t ++ Entry.of ⟨m, s.trace⟩ none) := by
  intro m' x hx
  rw [lines_take] at hx
  rcases List.mem_append.mp hx with hx | hx
  · exact h m' x hx
  · unfold Entry.of at hx
    split at hx
    · exact hs x hx
    · cases hx

theorem Throughout.put (h : Throughout P e t) {d : Draft} (hd : d.trace = [] ∨
    d.trace = (e.drafts k).trace) : Throughout P (e.put k d) t := by
  intro m' x hx
  rw [lines_put] at hx
  by_cases hm : m' = some k
  · subst hm
    rw [Function.update_self] at hx
    rcases hd with hd | hd
    · rw [hd] at hx
      cases hx
    · rw [hd] at hx
      exact h (some k) x hx
  · rw [Function.update_of_ne hm] at hx
    exact h m' x hx

/-- What holds of the lines that members write by themselves holds of all lines: nothing else
brings in lines that are new. -/
theorem Throughout.act (h : Throughout P e t) (hstart : ∀ start, P (.transactionStart start))
    (hperform : ∀ m op s, a = .perform m op → (e.recorder m).perform op = .ok s →
      ∀ x ∈ s.trace, P x)
    (hact : e.act a = .ok (e', entry)) : Throughout P e' (t ++ entry.of none) := by
  cases a with
  | perform m op =>
    obtain ⟨s, hs, rfl, rfl⟩ := act_perform_ok hact
    exact h.take (hperform m op s rfl hs)
  | start lender k other tx index baseFee =>
    obtain ⟨-, s, rfl, rfl, ⟨-, rfl⟩ | ⟨-, -, -, -, rfl⟩⟩ := act_start_ok hact
    · exact h.take (by simp)
    · exact h.take (by simpa using hstart _)
  | flushTransaction receiver k other =>
    rcases act_flushTransaction_ok hact with ⟨-, rfl, rfl⟩ | ⟨-, -, -, -, rfl, rfl⟩
    · rw [Entry.of_nil, List.append_nil]
      exact h.put (.inr rfl)
    · have hput : Throughout P (e.put k (e.drafts k).released) t := h.put (.inl rfl)
      rw [← Recorder.trace_receive (e.recorder receiver)]
      refine hput.take fun x hx => ?_
      rw [Recorder.trace_receive] at hx
      exact h (some k) x hx
  | flushBlock receiver k other =>
    rcases act_flushBlock_ok hact with ⟨-, rfl, rfl⟩ | ⟨-, -, rfl, rfl⟩
    · rwa [Entry.of_nil, List.append_nil]
    · have hput : Throughout P (e.put k { e.drafts k with trace := [] }) t := h.put (.inl rfl)
      rw [← Recorder.trace_receiveBlock (e.recorder receiver)]
      refine hput.take fun x hx => ?_
      rw [Recorder.trace_receiveBlock] at hx
      exact h (some k) x hx
  | abandon k =>
    obtain ⟨rfl, rfl⟩ := Prod.mk.inj (Except.ok.inj hact)
    rw [Entry.of_nil, List.append_nil]
    exact h.put (.inl rfl)

omit [DecidableEq ι] in
theorem Untouched.throughout (h : e.Untouched) : Throughout P e [] := by
  intro m x hx
  cases m with
  | none => cases hx
  | some k =>
    obtain ⟨_, _, -, htrace⟩ := h.drafts k
    simp [lines, htrace] at hx

/-- If the act is an operation of a member, it is one of these. -/
def Act.Asks (Q : Operation → Prop) : Act ι → Prop
  | .perform _ op => Q op
  | _ => True

/-- What holds of the lines of each operation holds of all lines of a run. -/
theorem throughout_run {Q : Operation → Prop} (hstart : ∀ start, P (.transactionStart start))
    (hperform : ∀ (r : Recorder) (op : Operation) (s : Step), Q op → r.perform op = .ok s →
      ∀ x ∈ s.trace, P x)
    {acts : List (Act ι)} {j : Journal ι} (h : e.Untouched) (hasks : ∀ a ∈ acts, a.Asks Q)
    (hrun : e.run acts = .ok (e', j)) : Throughout P e' (j.of none) := by
  refine run_induction (fun _ a => a.Asks Q) (Throughout P) (t := []) ?_ h.throughout
    (along_of_forall fun a ha _ => hasks a ha) hrun
  intro x t a x' entry hlines hask hact
  refine hlines.act hstart (fun m op s ha hs => ?_) hact
  subst ha
  exact hperform _ op s hask hs

/-- The texts that the act brings in fit into their places. -/
def Act.TextsFit : Act ι → Prop
  | .perform _ op => op.TextsFit
  | _ => True

theorem isLine_run {acts : List (Act ι)} {j : Journal ι} (h : e.Untouched)
    (hfit : ∀ a ∈ acts, a.TextsFit) (hrun : e.run acts = .ok (e', j)) :
    Throughout Event.IsLine e' (j.of none) := by
  have hasks : ∀ a ∈ acts, a.Asks Operation.TextsFit := by
    intro a ha
    have hfits := hfit a ha
    cases a with
    | perform m op => exact hfits
    | _ => trivial
  exact throughout_run (fun _ => Event.isLine_iff.mpr trivial)
    (fun _ _ _ hop hs => Recorder.isLine_perform hop hs) h hasks hrun

/-- Each operation puts out one line for each event if and only if its texts fit. As long as they
do, the lines of every member can be read back one by one, and they are as many as its events and
tell them in order; the canonical ones are what a sink that accepts every write holds. -/
theorem events_are_lines :
    (∀ (r : Recorder) (op : Operation) (s : Step), r.enabled = true → r.perform op = .ok s →
      ((∀ x ∈ s.trace, x.IsLine) ↔ op.TextsFit)) ∧
    ∀ (e e' : Ensemble ι) (acts : List (Act ι)) (j : Journal ι), e.Untouched →
      (∀ a ∈ acts, a.TextsFit) → e.run acts = .ok (e', j) →
      (e.canonical.AcceptsAll →
        e'.canonical.content = e.canonical.content ++ (j.of none).bytes) ∧
      ∀ m, (∀ x ∈ e'.lines (j.of none) m, x.IsLine) ∧
        Line.readAll? (e'.lines (j.of none) m).bytes =
          some ((e'.lines (j.of none) m).map Event.words) := by
  refine ⟨fun r op s henabled h => ?_, fun e e' acts j h hfit hrun => ⟨?_, fun m => ?_⟩⟩
  · rw [Recorder.perform_enabled henabled] at h
    exact Recorder.isLine_record h
  · exact fun haccepts => content_run haccepts hrun
  · have hlines := isLine_run h hfit hrun m
    exact ⟨hlines, Trace.readAll?_bytes hlines⟩

/-- A version and a reason that have spaces in them. -/
def spoken : List (Act Bool) :=
  [.perform none (.announce "node 1.0" "2.2" "geth"),
   .perform none (.startBlock (Consumer.plainBlock 7)),
   .perform none (.cancelBlock (Consumer.plainBlock 7) "too late")]

theorem events_are_lines_spoken :
    ∃ e' j, sample.run spoken = .ok (e', j) ∧ sample.Untouched ∧ (∀ a ∈ spoken, a.TextsFit) ∧
      sample.canonical.AcceptsAll ∧
      e'.canonical.content = Bytes.ofText
        "FIRE INIT 2.2 geth node 1.0\nFIRE BEGIN_BLOCK 7\nFIRE CANCEL_BLOCK 7 too late\n" ∧
      Line.readAll? (j.of none).bytes = some ((j.of none).map Event.words) := by
  have hfit : ∀ a ∈ spoken, a.TextsFit := by
    simp only [spoken, List.forall_mem_cons]
    exact ⟨⟨⟨by decide, by decide, by decide⟩, ⟨by decide, by decide, by decide⟩,
      ⟨by decide, by decide⟩⟩, trivial, ⟨by decide, by decide⟩, by simp⟩
  have haccepts : sample.canonical.AcceptsAll := Sink.acceptsAll_accepting
  obtain ⟨hcontent, hlines⟩ :=
    events_are_lines.2 sample _ spoken _ untouched_sample hfit rfl
  exact ⟨_, _, rfl, untouched_sample, hfit, haccepts, (hcontent haccepts).trans rfl,
    (hlines none).2⟩

/-- A reason that has a newline makes another line, an empty one leaves its field empty, and a
variant of the chain that has a space moves the fields behind it. -/
theorem texts_break_lines :
    (∃ s, (Recorder.fresh true false).run [.startBlock (Consumer.plainBlock 7),
        .cancelBlock (Consumer.plainBlock 7) "a\nb"] = .ok s ∧
      s.trace.length = 2 ∧ s.trace.bytes.count 10 = 3 ∧ Line.readAll? s.trace.bytes = none) ∧
    (∃ s, (Recorder.fresh true false).run [.startBlock (Consumer.plainBlock 7),
        .cancelBlock (Consumer.plainBlock 7) ""] = .ok s ∧
      s.trace.bytes = Bytes.ofText "FIRE BEGIN_BLOCK 7\nFIRE CANCEL_BLOCK 7 \n" ∧
      Line.readAll? s.trace.bytes = none) ∧
    ∃ s, (Recorder.fresh true false).run [.announce "node" "2.2" "a b"] = .ok s ∧
      Line.readAll? s.trace.bytes =
        some [["FIRE", "INIT", "2.2", "a", "b node"].map Bytes.ofText] :=
  ⟨⟨_, rfl, rfl, by decide, by decide⟩, ⟨_, rfl, by decide, by decide⟩, _, rfl, by decide⟩

end Ensemble
end EvmTrace
