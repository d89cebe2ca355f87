import EvmTrace.Payload
import EvmTrace.Proofs.Fields
import EvmTrace.Proofs.Rendering

/-!
# Payloads are words

A payload is JSON without blanks, and all that it shows is hexadecimal. So it is made of printable
characters only, and takes one field of a line.
-/
namespace EvmTrace

/-- Made of printable characters other than the space. -/
def Bytes.IsGraphic (b : Bytes) : Prop := ∀ c ∈ b, 32 < c ∧ c < 127

namespace Bytes.IsGraphic

variable {a b : Bytes} {c : UInt8}

instance : Decidable (IsGraphic b) := List.decidableBAll (fun c => 32 < c ∧ c < 127) b

theorem cons (hc : 32 < c ∧ c < 127) (hb : IsGraphic b) : IsGraphic (c :: b) := by
  simpa [IsGraphic] using ⟨hc, hb⟩

theorem append (ha : IsGraphic a) (hb : IsGraphic b) : IsGraphic (a ++ b) := by
  intro c hc
  rcases List.mem_append.mp hc with hc | hc
  · exact ha c hc
  · exact hb c hc

theorem flatMap {α : Type} {l : List α} {f : α → Bytes} (h : ∀ x ∈ l, IsGraphic (f x)) :
    IsGraphic (l.flatMap f) := by
  intro c hc
  obtain ⟨x, hx, hc⟩ := List.mem_flatMap.mp hc
  exact h x hx c hc

theorem isWord (hb : IsGraphic b) (hne : b ≠ []) : Field.IsWord b where
  ne_nil := hne
  noSpace := fun hmem => absurd (hb _ hmem) (by decide)
  noNewline := fun hmem => absurd (hb _ hmem) (by decide)

end Bytes.IsGraphic

namespace Bytes

theorem utf8EncodeChar_ofNat :
    ∀ n < 127, String.utf8EncodeChar (Char.ofNat n) = [UInt8.ofNat n] := by decide

theorem ofText_ascii {b : Bytes} (h : b.IsGraphic) : ofText (ascii b) = b := by
  have hchar : ∀ c ∈ b, String.utf8EncodeChar (Char.ofNat c.toNat) = [c] := fun c hc => by
    rw [utf8EncodeChar_ofNat c.toNat (UInt8.lt_iff_toNat_lt.mp (h c hc).2), UInt8.ofNat_toNat]
  simp only [ofText, ascii, String.toUTF8_eq_toByteArray, String.toByteArray_ofList,
    List.utf8Encode, List.toList_data_toByteArray, List.flatMap_map]
  rw [List.flatMap_def, List.map_congr_left hchar, ← List.flatMap_def, List.flatMap_singleton']

end Bytes

/-! ## Hexadecimal -/

namespace Hex

theorem isGraphic_digit : ∀ n < 16, 32 < digit n ∧ digit n < 127 := by decide

theorem isGraphic_encode (b : Bytes) : (encode b).IsGraphic := by
  intro c hc
  obtain ⟨x, -, hc⟩ := List.mem_flatMap.mp hc
  have hx : x.toNat < 256 := x.toNat_lt
  simp only [pair, List.mem_cons, List.not_mem_nil, or_false] at hc
  rcases hc with rfl | rfl
  · exact isGraphic_digit _ (by omega)
  · exact isGraphic_digit _ (by omega)

theorem isGraphic_digitChar : ∀ n < 16,
    32 < (Nat.digitChar n).toUInt8 ∧ (Nat.digitChar n).toUInt8 < 127 := by decide

theorem isGraphic_ofNat (n : Nat) : (ofNat n).IsGraphic := by
  induction n using Nat.strongRecOn with
  | ind n ih =>
    unfold ofNat
    by_cases hn : n < 16
    · rw [Nat.toDigits_of_lt_base hn]
      exact .cons (isGraphic_digitChar n hn) (by decide)
    · rw [Nat.toDigits_of_base_le (by omega) (by omega), List.map_append]
      exact (ih (n / 16) (by omega)).append
        (.cons (isGraphic_digitChar (n % 16) (Nat.mod_lt n (by omega))) (by decide))

theorem isGraphic_prefixed (b : Bytes) : (prefixed b).IsGraphic :=
  .append (by decide) (isGraphic_encode b)

theorem isGraphic_quantity (n : Nat) : (quantity n).IsGraphic :=
  .append (by decide) (isGraphic_ofNat n)

end Hex

/-! ## JSON -/

namespace Json

open Bytes (IsGraphic)

theorem isGraphic_escapeByte_ofNat :
    ∀ n < 127, 32 < n → IsGraphic (escapeByte (UInt8.ofNat n)) := by decide

theorem isGraphic_escapeByte (c : UInt8) (hc : 32 < c ∧ c < 127) :
    IsGraphic (escapeByte c) := by
  have h := isGraphic_escapeByte_ofNat c.toNat (UInt8.lt_iff_toNat_lt.mp hc.2)
    (UInt8.lt_iff_toNat_lt.mp hc.1)
  rwa [UInt8.ofNat_toNat] at h

theorem isGraphic_renderText {s : String} (h : IsGraphic (Bytes.ofText s)) :
    IsGraphic (renderText s) := by
  have hescaped : IsGraphic ((Bytes.ofText s).flatMap escapeByte) :=
    .flatMap fun c hc => isGraphic_escapeByte c (h c hc)
  exact .cons (by decide) (hescaped.append (by decide))

theorem isGraphic_null : IsGraphic null.render := by
  rw [render]
  decide

theorem isGraphic_text {s : String} (h : IsGraphic (Bytes.ofText s)) :
    IsGraphic (text s).render := by
  rw [render]
  exact isGraphic_renderText h

theorem isGraphic_renderItems {items : List Json} (h : ∀ item ∈ items, IsGraphic item.render) :
    IsGraphic (renderItems items) := by
  cases items with
  | nil =>
    rw [renderItems]
    decide
  | cons item rest =>
    obtain ⟨hfirst, hrest⟩ := List.forall_mem_cons.mp h
    rw [renderItems_cons]
    exact hfirst.append (.flatMap fun next hnext => .cons (by decide) (hrest next hnext))

theorem isGraphic_array {items : List Json} (h : ∀ item ∈ items, IsGraphic item.render) :
    IsGraphic (array items).render := by
  rw [render]
  exact .cons (by decide) ((isGraphic_renderItems h).append (by decide))

/-- A member whose key and value show printable characters only. -/
structure IsGraphicMember (m : String × Json) : Prop where
  key : IsGraphic (Bytes.ofText m.1)
  value : IsGraphic m.2.render

theorem isGraphic_renderMember {m : String × Json} (h : IsGraphicMember m) :
    IsGraphic (renderMember m) :=
  (isGraphic_renderText h.key).append (.cons (by decide) h.value)

theorem isGraphic_renderMembers {members : List (String × Json)}
    (h : ∀ m ∈ members, IsGraphicMember m) : IsGraphic (renderMembers members) := by
  cases members with
  | nil =>
    rw [renderMembers]
    decide
  | cons m rest =>
    obtain ⟨hfirst, hrest⟩ := List.forall_mem_cons.mp h
    rw [renderMembers_cons]
    exact (isGraphic_renderMember hfirst).append
      (.flatMap fun next hnext => .cons (by decide) (isGraphic_renderMember (hrest next hnext)))

theorem isGraphic_object {members : List (String × Json)}
    (h : ∀ m ∈ members, IsGraphicMember m) : IsGraphic (object members).render := by
  rw [render]
  exact .cons (by decide) ((isGraphic_renderMembers h).append (by decide))

end Json

namespace Payload

open Bytes (IsGraphic)
open Json (IsGraphicMember isGraphic_array isGraphic_object)

theorem isGraphic_bytes (b : Bytes) : IsGraphic (bytes b).render := by
  apply Json.isGraphic_text
  rw [Bytes.ofText_ascii (Hex.isGraphic_prefixed b)]
  exact Hex.isGraphic_prefixed b

theorem isGraphic_quantity (n : Nat) : IsGraphic (quantity n).render := by
  apply Json.isGraphic_text
  rw [Bytes.ofText_ascii (Hex.isGraphic_quantity n)]
  exact Hex.isGraphic_quantity n

theorem isGraphicMember {key : String} {value : Json} (hkey : IsGraphic (Bytes.ofText key))
    (hvalue : IsGraphic value.render) : IsGraphicMember (key, value) := ⟨hkey, hvalue⟩

theorem isGraphic_header (h : Header) : IsGraphic (header h).render := by
  have hbytes {key : String} (hkey : IsGraphic (Bytes.ofText key)) (b : Bytes) :
      IsGraphicMember (key, bytes b) := isGraphicMember hkey (isGraphic_bytes b)
  have hquantity {key : String} (hkey : IsGraphic (Bytes.ofText key)) (n : Nat) :
      IsGraphicMember (key, quantity n) := isGraphicMember hkey (isGraphic_quantity n)
  apply isGraphic_object
  simp only [List.forall_mem_append, List.forall_mem_cons, List.forall_mem_map]
  refine ⟨⟨⟨hbytes (by decide) _, hbytes (by decide) _, hbytes (by decide) _,
    hbytes (by decide) _, hbytes (by decide) _, hbytes (by decide) _, hbytes (by decide) _,
    hquantity (by decide) _, hquantity (by decide) _, hquantity (by decide) _,
    hquantity (by decide) _, hquantity (by decide) _, hbytes (by decide) _,
    hbytes (by decide) _, hbytes (by decide) _, ?_⟩, ?_⟩, hbytes (by decide) _, ?_⟩
  · simp
  · exact fun fee _ => hquantity (by decide) _
  · simp

theorem isGraphic_endedBlock (b : Block) (totalDifficulty : Option Word) :
    IsGraphic (endedBlock b totalDifficulty).render := by
  have huncles : IsGraphic (Json.array (b.uncles.map header)).render :=
    isGraphic_array (List.forall_mem_map.mpr fun uncle _ => isGraphic_header uncle)
  have hdifficulty :
      IsGraphic (totalDifficulty.elim Json.null fun d => quantity d.toNat).render := by
    cases totalDifficulty with
    | none => exact Json.isGraphic_null
    | some d => exact isGraphic_quantity _
  apply isGraphic_object
  simp only [List.forall_mem_cons]
  exact ⟨isGraphicMember (by decide) (isGraphic_header _), isGraphicMember (by decide) huncles,
    isGraphicMember (by decide) hdifficulty, by simp⟩

theorem isGraphic_log (l : Log) : IsGraphic (log l).render := by
  have htopics : IsGraphic (Json.array (l.topics.map fun t => bytes t.toList)).render :=
    isGraphic_array (List.forall_mem_map.mpr fun t _ => isGraphic_bytes t.toList)
  apply isGraphic_object
  simp only [List.forall_mem_cons]
  exact ⟨isGraphicMember (by decide) (isGraphic_bytes _),
    isGraphicMember (by decide) (isGraphic_bytes _), isGraphicMember (by decide) htopics, by simp⟩

theorem isGraphic_logs (ls : List Log) : IsGraphic (logs ls).render :=
  isGraphic_array (List.forall_mem_map.mpr fun l _ => isGraphic_log l)

theorem isWord_endedBlock (b : Block) (totalDifficulty : Option Word) :
    Field.IsWord (endedBlock b totalDifficulty).render :=
  (isGraphic_endedBlock b totalDifficulty).isWord (by simp [endedBlock, Json.render])

theorem isWord_logs (ls : List Log) : Field.IsWord (logs ls).render :=
  (isGraphic_logs ls).isWord (by simp [logs, Json.render])

end Payload
end EvmTrace
