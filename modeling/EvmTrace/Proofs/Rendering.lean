import EvmTrace.Json.Printer
import EvmTrace.Json.Reader

/-!
# Rendered values are read back

Reading the text of a value gives the value again, except that the members of an object come in the
order of their keys. Numbers are left out here: no payload holds one.
-/
namespace EvmTrace.Json

/-! ## Texts -/

namespace Text

theorem scan_step {mode next : Mode} {out more : Bytes} {c : UInt8} (rest : Bytes)
    (hquote : ¬(mode = .plain ∧ c = 34)) (h : step mode out c = .ok (next, more)) :
    scan mode out (c :: rest) = scan next more rest := by
  rw [scan, if_neg hquote, h]

theorem toNat?_pair : ∀ n < 32, Hex.toNat? (48 :: 48 :: Hex.pair (UInt8.ofNat n)) = some n := by
  decide

theorem ofText_singleton :
    ∀ n < 32, Bytes.ofText (String.singleton (Char.ofNat n)) = [UInt8.ofNat n] := by
  decide

/-- Four digits give a control byte back. -/
theorem scan_codeUnit {b : UInt8} (hb : b < 32) (out rest : Bytes) :
    scan (.codeUnit none []) out (48 :: 48 :: Hex.pair b ++ rest) =
      scan .plain (b :: out) rest := by
  have hlt : b.toNat < 32 := UInt8.lt_iff_toNat_lt.mp hb
  have hvalue : Hex.toNat? (48 :: 48 :: Hex.pair b) = some b.toNat := by
    simpa using toNat?_pair b.toNat hlt
  have hpush : pushCodePoint b.toNat out = b :: out := by
    rw [pushCodePoint, ofText_singleton b.toNat hlt, UInt8.ofNat_toNat]
    rfl
  have hunit : finishUnit none b.toNat out = .ok (.plain, b :: out) := by
    have htrail : isTrail b.toNat = false := by simp [isTrail]; omega
    have hlead : isLead b.toNat = false := by simp [isLead]; omega
    simp [finishUnit, htrail, hlead, hpush]
  have hlast : step (.codeUnit none [Hex.digit (b.toNat / 16), 48, 48]) out
      (Hex.digit (b.toNat % 16)) = .ok (.plain, b :: out) := by
    rw [Hex.pair] at hvalue
    simp [step, hvalue, hunit]
  rw [Hex.pair, List.cons_append, List.cons_append, scan_step _ (by simp) rfl,
    scan_step _ (by simp) rfl, List.cons_append, scan_step _ (by simp) rfl, List.cons_append,
    scan_step _ (by simp) hlast]
  rfl

/-- Reading the escape of a byte gives the byte. -/
theorem scan_escapeByte (b : UInt8) (out rest : Bytes) :
    scan .plain out (escapeByte b ++ rest) = scan .plain (b :: out) rest := by
  unfold escapeByte
  split
  · subst b; rfl
  split
  · subst b; rfl
  split
  · subst b; rfl
  split
  · subst b; rfl
  split
  · subst b; rfl
  split
  · subst b; rfl
  split
  · subst b; rfl
  rename_i hquote hbackslash _ _ _ _ _
  split
  · rename_i hcontrol
    have hopen : Bytes.ofText "\\u00" = [92, 117, 48, 48] := rfl
    rw [hopen]
    exact scan_codeUnit hcontrol out rest
  · rename_i hcontrol
    exact scan_step rest (by simp [hquote]) (by simp [step, hbackslash, hcontrol])

theorem scan_escaped (b out rest : Bytes) :
    scan .plain out (b.flatMap escapeByte ++ 34 :: rest) = .ok (out.reverse ++ b, rest) := by
  induction b generalizing out with
  | nil => simp [scan]
  | cons x b ih =>
    rw [List.flatMap_cons, List.append_assoc, scan_escapeByte, ih, List.reverse_cons,
      List.append_assoc, List.singleton_append]

theorem read_escaped (s : String) (rest : Bytes) :
    read ((Bytes.ofText s).flatMap escapeByte ++ 34 :: rest) = .ok (s, rest) := by
  rw [read, scan_escaped]
  simp only [List.reverse_nil, List.nil_append, bind, Except.bind, Bytes.text?_ofText]
  rfl

end Text

/-! ## Values -/

mutual

/-- The value with the members of every object in the order of their keys. -/
def arrange : Json → Json
  | null => null
  | bool b => bool b
  | number n => number n
  | text s => text s
  | array items => array (arrangeItems items)
  | object members => object (arrangeMembers [] members)

def arrangeItems : List Json → List Json
  | [] => []
  | item :: rest => arrange item :: arrangeItems rest

/-- Puts members among those that are in order already. -/
def arrangeMembers (arranged : List (String × Json)) :
    List (String × Json) → List (String × Json)
  | [] => arranged
  | (key, value) :: rest => arrangeMembers (insertMember key (arrange value) arranged) rest

end

theorem arrangeItems_eq (items : List Json) : arrangeItems items = items.map arrange := by
  induction items with
  | nil => rfl
  | cons item rest ih => rw [arrangeItems, ih, List.map_cons]

/-- Holds no number, and opens at most so many brackets inside each other. -/
inductive Nests : Nat → Json → Prop
  | null {n : Nat} : Nests n .null
  | bool {n : Nat} (b : Bool) : Nests n (.bool b)
  | text {n : Nat} (s : String) : Nests n (.text s)
  | array {n : Nat} {items : List Json} (h : ∀ item ∈ items, Nests n item) :
      Nests (n + 1) (.array items)
  | object {n : Nat} {members : List (String × Json)} (h : ∀ m ∈ members, Nests n m.2) :
      Nests (n + 1) (.object members)

theorem Nests.mono {n m : Nat} {v : Json} (h : Nests n v) (hle : n ≤ m) : Nests m v := by
  induction h generalizing m with
  | null => exact .null
  | bool b => exact .bool b
  | text s => exact .text s
  | array _ ih =>
    obtain ⟨m, rfl⟩ := Nat.exists_eq_add_one_of_ne_zero (by omega : m ≠ 0)
    exact .array fun item hmem => ih item hmem (by omega)
  | object _ ih =>
    obtain ⟨m, rfl⟩ := Nat.exists_eq_add_one_of_ne_zero (by omega : m ≠ 0)
    exact .object fun member hmem => ih member hmem (by omega)

/-- The text of a member. -/
def renderMember (m : String × Json) : Bytes := renderText m.1 ++ 58 :: m.2.render

theorem renderItems_cons (item : Json) (rest : List Json) :
    renderItems (item :: rest) = item.render ++ rest.flatMap (44 :: ·.render) := by
  induction rest generalizing item with
  | nil => simp [renderItems]
  | cons next more ih =>
    rw [renderItems, ih, List.flatMap_cons, List.cons_append]
    simp

theorem renderMembers_cons (m : String × Json) (rest : List (String × Json)) :
    renderMembers (m :: rest) = renderMember m ++ rest.flatMap (44 :: renderMember ·) := by
  induction rest generalizing m with
  | nil => simp [renderMembers, renderMember]
  | cons next more ih =>
    rw [renderMembers, ih, List.flatMap_cons, List.cons_append]
    · simp [renderMember]
    · simp

/-- No value starts like a blank or a closing bracket. -/
theorem render_head {n : Nat} {v : Json} (h : Nests n v) :
    ∃ c rest, v.render = c :: rest ∧ isSpace c = false ∧
      ∀ bracket : Bracket, c ≠ bracket.close := by
  have hclose {c : UInt8} (harray : c ≠ 93) (hobject : c ≠ 125) (bracket : Bracket) :
      c ≠ bracket.close := by
    cases bracket with
    | array => exact harray
    | object => exact hobject
  cases h with
  | null => exact ⟨110, [117, 108, 108], by rw [render]; rfl, rfl, hclose (by decide) (by decide)⟩
  | bool b =>
    cases b with
    | true => exact ⟨116, [114, 117, 101], by rw [render]; rfl, rfl, hclose (by decide) (by decide)⟩
    | false =>
      exact ⟨102, [97, 108, 115, 101], by rw [render]; rfl, rfl, hclose (by decide) (by decide)⟩
  | text s => exact ⟨34, _, by rw [render, renderText]; rfl, rfl, hclose (by decide) (by decide)⟩
  | array _ => exact ⟨91, _, by rw [render]; rfl, rfl, hclose (by decide) (by decide)⟩
  | object _ => exact ⟨123, _, by rw [render]; rfl, rfl, hclose (by decide) (by decide)⟩

theorem skipSpace_cons {c : UInt8} (h : isSpace c = false) (rest : Bytes) :
    skipSpace (c :: rest) = c :: rest := by
  rw [skipSpace, List.dropWhile_cons_of_neg (by simp [h])]

theorem nextItem_first {bracket : Bracket} {c : UInt8} (hspace : isSpace c = false)
    (hclose : c ≠ bracket.close) (rest : Bytes) :
    nextItem bracket true (c :: rest) = .ok (true, c :: rest) := by
  rw [nextItem, skipSpace_cons hspace]
  simp [hclose]

theorem nextItem_comma (bracket : Bracket) (rest : Bytes) :
    nextItem bracket false (44 :: rest) = .ok (true, rest) := by
  cases bracket <;> rfl

theorem nextItem_close (bracket : Bracket) (isFirst : Bool) (rest : Bytes) :
    nextItem bracket isFirst (bracket.close :: rest) = .ok (false, rest) := by
  cases bracket <;> rfl

theorem readKey_member (m : String × Json) (rest : Bytes) :
    readKey (renderMember m ++ rest) = .ok (m.1, 58 :: (m.2.render ++ rest)) := by
  have hread := Text.read_escaped m.1 (58 :: (m.2.render ++ rest))
  rw [renderMember, renderText, List.cons_append, List.cons_append, List.cons_append, readKey,
    skipSpace_cons rfl]
  simpa using hread

theorem readColon_cons (rest : Bytes) : readColon (58 :: rest) = .ok rest := by
  rw [readColon, skipSpace_cons rfl]
  rfl

/-- The text of the value gives it back, whatever stands behind it. -/
def ReadsBack (depth : Nat) (v : Json) : Prop :=
  ∀ steps rest, v.render.length ≤ steps →
    readValue steps depth (v.render ++ rest) = .ok (v.arrange, rest)

section Brackets

variable {depth steps : Nat}

/-- Every item takes a step of its own, and none takes more than its text is long. -/
theorem readItems_more {items : List Json} (h : ∀ item ∈ items, ReadsBack depth item)
    (hsteps : (items.flatMap (44 :: ·.render)).length < steps) (rest : Bytes) :
    readItems steps depth false (items.flatMap (44 :: ·.render) ++ 93 :: rest) =
      .ok (arrangeItems items, rest) := by
  induction items generalizing steps with
  | nil =>
    obtain ⟨steps, rfl⟩ := Nat.exists_eq_add_one_of_ne_zero (by omega : steps ≠ 0)
    have hclose : nextItem .array false (93 :: rest) = .ok (false, rest) :=
      nextItem_close .array false rest
    rw [List.flatMap_nil, List.nil_append, readItems, hclose]
    rfl
  | cons item items ih =>
    obtain ⟨steps, rfl⟩ := Nat.exists_eq_add_one_of_ne_zero (by omega : steps ≠ 0)
    simp only [List.flatMap_cons, List.length_append, List.length_cons] at hsteps
    have hitem := h item List.mem_cons_self steps
      (items.flatMap (44 :: ·.render) ++ 93 :: rest) (by omega)
    have hitems := ih (fun item hmem => h item (List.mem_cons_of_mem _ hmem))
      (by omega : _ < steps)
    rw [List.flatMap_cons, List.append_assoc, List.cons_append, readItems, nextItem_comma]
    simp only [bind, Except.bind, if_true, hitem, hitems]
    rfl

theorem readItems_first {items : List Json} (h : ∀ item ∈ items, ReadsBack depth item)
    (hnests : ∀ item ∈ items, Nests depth item) (hsteps : (renderItems items).length < steps)
    (rest : Bytes) :
    readItems steps depth true (renderItems items ++ 93 :: rest) =
      .ok (arrangeItems items, rest) := by
  obtain ⟨steps, rfl⟩ := Nat.exists_eq_add_one_of_ne_zero (by omega : steps ≠ 0)
  cases items with
  | nil =>
    have hclose : nextItem .array true (93 :: rest) = .ok (false, rest) :=
      nextItem_close .array true rest
    rw [renderItems, List.nil_append, readItems, hclose]
    rfl
  | cons item items =>
    obtain ⟨c, text, hhead, hspace, hopen⟩ := render_head (hnests item List.mem_cons_self)
    have hnext (rest : Bytes) :
        nextItem .array true (item.render ++ rest) = .ok (true, item.render ++ rest) := by
      rw [hhead]
      exact nextItem_first hspace (hopen .array) (text ++ rest)
    have hlength : 0 < item.render.length := by simp [hhead]
    rw [renderItems_cons] at hsteps ⊢
    rw [List.length_append] at hsteps
    have hitem := h item List.mem_cons_self steps
      (items.flatMap (44 :: ·.render) ++ 93 :: rest) (by omega)
    have hitems := readItems_more (fun item hmem => h item (List.mem_cons_of_mem _ hmem))
      (by omega : _ < steps) rest
    rw [List.append_assoc, readItems, hnext]
    simp only [bind, Except.bind, if_true, hitem, hitems]
    rfl

/-- A member is read at the place where it was written. -/
theorem readMembers_member {m : String × Json} (h : ReadsBack depth m.2)
    (hsteps : (renderMember m).length ≤ steps) {isFirst : Bool} {b : Bytes} (rest : Bytes)
    (arranged : List (String × Json))
    (hnext : nextItem .object isFirst b = .ok (true, renderMember m ++ rest)) :
    readMembers (steps + 1) depth isFirst arranged b =
      readMembers steps depth false (insertMember m.1 m.2.arrange arranged) rest := by
  have hvalue := h steps rest (by simp [renderMember] at hsteps; omega)
  rw [readMembers, hnext]
  simp only [bind, Except.bind, if_true, readKey_member, readColon_cons, hvalue]

theorem readMembers_more {members : List (String × Json)}
    (h : ∀ m ∈ members, ReadsBack depth m.2)
    (hsteps : (members.flatMap (44 :: renderMember ·)).length < steps) (rest : Bytes)
    (arranged : List (String × Json)) :
    readMembers steps depth false arranged
        (members.flatMap (44 :: renderMember ·) ++ 125 :: rest) =
      .ok (arrangeMembers arranged members, rest) := by
  induction members generalizing steps arranged with
  | nil =>
    obtain ⟨steps, rfl⟩ := Nat.exists_eq_add_one_of_ne_zero (by omega : steps ≠ 0)
    have hclose : nextItem .object false (125 :: rest) = .ok (false, rest) :=
      nextItem_close .object false rest
    rw [List.flatMap_nil, List.nil_append, readMembers, hclose]
    rfl
  | cons m members ih =>
    obtain ⟨steps, rfl⟩ := Nat.exists_eq_add_one_of_ne_zero (by omega : steps ≠ 0)
    simp only [List.flatMap_cons, List.length_append, List.length_cons] at hsteps
    rw [List.flatMap_cons, List.append_assoc, List.cons_append,
      readMembers_member (h m List.mem_cons_self) (by omega) _ arranged (nextItem_comma ..)]
    exact ih (fun m hmem => h m (List.mem_cons_of_mem _ hmem)) (by omega) _

theorem readMembers_first {members : List (String × Json)}
    (h : ∀ m ∈ members, ReadsBack depth m.2) (hsteps : (renderMembers members).length < steps)
    (rest : Bytes) :
    readMembers steps depth true [] (renderMembers members ++ 125 :: rest) =
      .ok (arrangeMembers [] members, rest) := by
  obtain ⟨steps, rfl⟩ := Nat.exists_eq_add_one_of_ne_zero (by omega : steps ≠ 0)
  cases members with
  | nil =>
    have hclose : nextItem .object true (125 :: rest) = .ok (false, rest) :=
      nextItem_close .object true rest
    rw [renderMembers, List.nil_append, readMembers, hclose]
    rfl
  | cons m members =>
    have hnext (rest : Bytes) :
        nextItem .object true (renderMember m ++ rest) = .ok (true, renderMember m ++ rest) := by
      rw [renderMember, renderText]
      exact nextItem_first rfl (by decide) _
    have hlength : 0 < (renderMember m).length := by
      rw [renderMember, List.length_append, List.length_cons]
      omega
    rw [renderMembers_cons] at hsteps ⊢
    rw [List.length_append] at hsteps
    rw [List.append_assoc, readMembers_member (h m List.mem_cons_self) (by omega) _ [] (hnext _)]
    exact readMembers_more (fun m hmem => h m (List.mem_cons_of_mem _ hmem)) (by omega) rest _

end Brackets

theorem ReadsBack.of_step {n : Nat} {v : Json} (hnests : Nests n v)
    (h : ∀ steps rest, v.render.length ≤ steps + 1 →
      readValue (steps + 1) n (v.render ++ rest) = .ok (v.arrange, rest)) : ReadsBack n v := by
  intro steps rest hsteps
  obtain ⟨c, text, hhead, -⟩ := render_head hnests
  have hlength : v.render.length = text.length + 1 := by rw [hhead, List.length_cons]
  obtain ⟨steps, rfl⟩ := Nat.exists_eq_add_one_of_ne_zero (by omega : steps ≠ 0)
  exact h steps rest hsteps

theorem readValue_scalar {c : UInt8} (hspace : isSpace c = false)
    (hscalar : Bracket.opens c = none) (steps depth : Nat) (rest : Bytes) :
    readValue (steps + 1) depth (c :: rest) = readScalar c rest := by
  rw [readValue, skipSpace_cons hspace]
  simp only [hscalar]

theorem readValue_array (steps depth : Nat) (rest : Bytes) :
    readValue (steps + 1) (depth + 1) (91 :: rest) =
      (readItems steps depth true rest).map fun r => (array r.1, r.2) := by
  rw [readValue, skipSpace_cons rfl]
  rfl

theorem readValue_object (steps depth : Nat) (rest : Bytes) :
    readValue (steps + 1) (depth + 1) (123 :: rest) =
      (readMembers steps depth true [] rest).map fun r => (object r.1, r.2) := by
  rw [readValue, skipSpace_cons rfl]
  rfl

/-- A value is read back at every depth that its brackets fit in. -/
theorem readsBack {n : Nat} {v : Json} (h : Nests n v) : ReadsBack n v := by
  induction h with
  | null =>
    refine .of_step .null fun steps rest _ => ?_
    rw [render]
    exact readValue_scalar rfl rfl steps _ _
  | bool b =>
    refine .of_step (.bool b) fun steps rest _ => ?_
    cases b with
    | true =>
      rw [render]
      exact readValue_scalar rfl rfl steps _ _
    | false =>
      rw [render]
      exact readValue_scalar rfl rfl steps _ _
  | text s =>
    refine .of_step (.text s) fun steps rest _ => ?_
    have hread : Text.read ((Bytes.ofText s).flatMap escapeByte ++ [34] ++ rest) =
        .ok (s, rest) := by
      rw [List.append_assoc]
      exact Text.read_escaped s rest
    rw [render, renderText, List.cons_append, List.cons_append, readValue_scalar rfl rfl]
    simp only [readScalar, hread]
    rfl
  | @array n items hnests ih =>
    refine .of_step (.array hnests) fun steps rest hsteps => ?_
    rw [render, List.cons_append, List.length_cons, List.length_append] at hsteps
    have hitems := readItems_first ih hnests (by simp at hsteps; omega : _ < steps) rest
    rw [render, List.cons_append, List.cons_append, List.append_assoc, List.singleton_append,
      readValue_array, hitems, arrange]
    rfl
  | @object n members hnests ih =>
    refine .of_step (.object hnests) fun steps rest hsteps => ?_
    rw [render, List.cons_append, List.length_cons, List.length_append] at hsteps
    have hmembers := readMembers_first ih (by simp at hsteps; omega : _ < steps) rest
    rw [render, List.cons_append, List.cons_append, List.append_assoc, List.singleton_append,
      readValue_object, hmembers, arrange]
    rfl

/-- The limits on steps and brackets are not met by what is written. -/
theorem read_render {n : Nat} {v : Json} (h : Nests n v) (hn : n ≤ depthLimit) :
    read v.render = .ok v.arrange := by
  have hread := readsBack (h.mono hn) (stepLimit v.render) [] (by rw [stepLimit]; omega)
  rw [List.append_nil] at hread
  rw [read, hread]
  rfl

/-! ## Members -/

theorem lookup_member (key : String) (value : Json) (rest : List (String × Json)) (k : String) :
    ((key, value) :: rest).lookup k = if k = key then some value else rest.lookup k := by
  by_cases h : k = key
  · rw [h, List.lookup_cons_self, if_pos rfl]
  · rw [List.lookup_cons, beq_false_of_ne h, if_neg h]

theorem lookup_insertMember (key : String) (value : Json) (members : List (String × Json))
    (k : String) :
    (insertMember key value members).lookup k =
      if k = key then some value else members.lookup k := by
  induction members with
  | nil => exact lookup_member key value [] k
  | cons m rest ih =>
    obtain ⟨name, v⟩ := m
    unfold insertMember
    split
    · exact lookup_member key value _ k
    split
    · rename_i hsame
      obtain rfl : key = name := by simpa using hsame
      rw [lookup_member, lookup_member]
      split <;> rfl
    · rename_i hother
      have hne : key ≠ name := by simpa using hother
      rw [lookup_member, lookup_member, ih]
      by_cases h : k = name
      · rw [if_pos h, if_neg (h ▸ hne.symm), if_pos h]
      · rw [if_neg h, if_neg h]

theorem lookup_eq_none {members : List (String × Json)} {key : String}
    (h : key ∉ members.map Prod.fst) : members.lookup key = none := by
  rw [List.lookup_eq_none_iff]
  intro m hm
  simpa using fun hkey : key = m.1 => h (hkey ▸ List.mem_map_of_mem hm)

/-- Among members of different keys each is found as it was written. -/
theorem lookup_arrangeMembers {members : List (String × Json)}
    (hkeys : (members.map Prod.fst).Nodup) (arranged : List (String × Json)) (key : String) :
    (arrangeMembers arranged members).lookup key =
      ((members.lookup key).map arrange).or (arranged.lookup key) := by
  induction members generalizing arranged with
  | nil => simp [arrangeMembers]
  | cons m rest ih =>
    obtain ⟨name, value⟩ := m
    obtain ⟨hname, hrest⟩ := List.nodup_cons.mp hkeys
    rw [arrangeMembers, ih hrest, lookup_insertMember, lookup_member]
    by_cases h : key = name
    · subst h
      simp [lookup_eq_none hname]
    · rw [if_neg h, if_neg h]

/-- The keys of an object. -/
def keys : Json → List String
  | object members => members.map Prod.fst
  | _ => []

theorem member?_arrange {v : Json} (hkeys : v.keys.Nodup) (key : String) :
    member? key v.arrange = (member? key v).map arrange := by
  cases v with
  | object members =>
    rw [arrange, member?, lookup_arrangeMembers hkeys, List.lookup_nil, Option.or_none, member?]
  | _ => rw [arrange]; rfl

end EvmTrace.Json
