import EvmTrace.Configuration
import EvmTrace.Proofs.Files
import EvmTrace.Proofs.Rendering

/-!
# Saved settings are loaded again

The text of settings leaves out the paths that are not set, and these have no other default. So
reading the members that it has onto the default settings gives the settings back, in whatever order
they come. The text is UTF-8, since only characters below 128 are escaped, and so it can be kept in
a file and loaded from there.
-/
namespace EvmTrace

/-! ## Escapes in UTF-8 -/

namespace Bytes

/-- Encodes some text. -/
def IsUtf8 (b : Bytes) : Prop := ∃ s : String, ofText s = b

theorem ofText_ofList (chars : List Char) :
    ofText (String.ofList chars) = chars.flatMap String.utf8EncodeChar := by
  simp only [ofText, String.toUTF8_eq_toByteArray, String.toByteArray_ofList, List.utf8Encode,
    List.toList_data_toByteArray]

theorem ofText_eq_flatMap (s : String) : ofText s = s.toList.flatMap String.utf8EncodeChar := by
  rw [← ofText_ofList, String.ofList_toList]

theorem ofText_append (s t : String) : ofText (s ++ t) = ofText s ++ ofText t := by
  simp only [ofText_eq_flatMap, String.toList_append, List.flatMap_append]

namespace IsUtf8

variable {a b : Bytes}

theorem ofText (s : String) : IsUtf8 (ofText s) := ⟨s, rfl⟩

theorem append (ha : IsUtf8 a) (hb : IsUtf8 b) : IsUtf8 (a ++ b) := by
  obtain ⟨s, rfl⟩ := ha
  obtain ⟨t, rfl⟩ := hb
  exact ⟨s ++ t, ofText_append s t⟩

theorem flatMap {α : Type} {l : List α} {f : α → Bytes} (h : ∀ x ∈ l, IsUtf8 (f x)) :
    IsUtf8 (l.flatMap f) := by
  induction l with
  | nil => exact ofText ""
  | cons x l ih =>
    rw [List.flatMap_cons]
    exact (h x List.mem_cons_self).append (ih fun y hy => h y (List.mem_cons_of_mem _ hy))

theorem isSome_text? (h : IsUtf8 b) : (Bytes.text? b).isSome = true := by
  obtain ⟨s, rfl⟩ := h
  rw [text?_ofText, Option.isSome_some]

end IsUtf8

theorem utf8EncodeChar_of_lt {n : Nat} (h : n < 128) :
    String.utf8EncodeChar (Char.ofNat n) = [UInt8.ofNat n] := by
  have hvalid : n.isValidChar := .inl (by omega)
  have hval : (Char.ofNat n).val.toNat = n := by
    rw [Char.ofNat, dif_pos hvalid]
    rfl
  simp only [String.utf8EncodeChar, hval]
  exact if_pos (by omega)

/-- Bytes below 128 are characters by themselves. -/
theorem isUtf8_of_lt {b : Bytes} (h : ∀ c ∈ b, c.toNat < 128) : IsUtf8 b := by
  refine ⟨ascii b, ?_⟩
  rw [ascii, ofText_ofList, List.flatMap_map]
  induction b with
  | nil => rfl
  | cons c b ih =>
    have hc := utf8EncodeChar_of_lt (h c List.mem_cons_self)
    rw [List.flatMap_cons, hc, UInt8.ofNat_toNat, ih fun x hx => h x (List.mem_cons_of_mem _ hx)]
    rfl

/-- A character is a byte below 128, or it takes bytes from 128 on. -/
theorem utf8EncodeChar_cases (c : Char) :
    (∃ b : UInt8, b.toNat < 128 ∧ String.utf8EncodeChar c = [b]) ∨
      ∀ b ∈ String.utf8EncodeChar c, 128 ≤ b.toNat := by
  have hbyte (n : Nat) (hn : 128 ≤ n % 256) : 128 ≤ (UInt8.ofNat n).toNat := by
    rwa [UInt8.toNat_ofNat']
  unfold String.utf8EncodeChar
  generalize c.val.toNat = v
  by_cases hone : v ≤ 127
  · left
    refine ⟨UInt8.ofNat v, ?_, if_pos hone⟩
    rw [UInt8.toNat_ofNat']
    omega
  · right
    rw [if_neg hone]
    by_cases htwo : v ≤ 2047
    · rw [if_pos htwo]
      simp only [List.forall_mem_cons]
      exact ⟨hbyte _ (by omega), hbyte _ (by omega), by simp⟩
    · rw [if_neg htwo]
      by_cases hthree : v ≤ 65535
      · rw [if_pos hthree]
        simp only [List.forall_mem_cons]
        exact ⟨hbyte _ (by omega), hbyte _ (by omega), hbyte _ (by omega), by simp⟩
      · rw [if_neg hthree]
        simp only [List.forall_mem_cons]
        exact ⟨hbyte _ (by omega), hbyte _ (by omega), hbyte _ (by omega), hbyte _ (by omega),
          by simp⟩

end Bytes

namespace Json

open Bytes (IsUtf8)

theorem escapeByte_of_lt {b : UInt8} (h : b.toNat < 128) : ∀ c ∈ escapeByte b, c.toNat < 128 := by
  have hdigit : ∀ n < 16, (Hex.digit n).toNat < 128 := by decide
  have hpair : ∀ c ∈ Hex.pair b, c.toNat < 128 := by
    simp only [Hex.pair, List.forall_mem_cons]
    exact ⟨hdigit _ (by omega), hdigit _ (by omega), by simp⟩
  have hopen : ∀ c ∈ Bytes.ofText "\\u00", c.toNat < 128 := by
    have hbytes : Bytes.ofText "\\u00" = [92, 117, 48, 48] := rfl
    simp [hbytes]
  unfold escapeByte
  split_ifs
  · simp
  · simp
  · simp
  · simp
  · simp
  · simp
  · simp
  · exact List.forall_mem_append.mpr ⟨hopen, hpair⟩
  · simpa using h

theorem escapeByte_of_le {b : UInt8} (h : 128 ≤ b.toNat) : escapeByte b = [b] := by
  have hne (n : UInt8) (hn : n.toNat < 128) : b ≠ n := by
    rintro rfl
    omega
  have hcontrol : ¬ b < 32 := by
    rw [UInt8.lt_iff_toNat_lt]
    have hlimit : (32 : UInt8).toNat = 32 := by decide
    omega
  simp only [escapeByte, hne 34 (by decide), hne 92 (by decide), hne 8 (by decide),
    hne 9 (by decide), hne 10 (by decide), hne 12 (by decide), hne 13 (by decide), hcontrol,
    if_false]

/-- No byte of a longer character is escaped, so characters stay whole. -/
theorem isUtf8_escapeChar (c : Char) : IsUtf8 ((String.utf8EncodeChar c).flatMap escapeByte) := by
  rcases Bytes.utf8EncodeChar_cases c with ⟨b, hb, hchar⟩ | hlong
  · rw [hchar, List.flatMap_singleton]
    exact Bytes.isUtf8_of_lt (escapeByte_of_lt hb)
  · have hkept : (String.utf8EncodeChar c).flatMap escapeByte = String.utf8EncodeChar c := by
      rw [List.flatMap_def, List.map_congr_left fun b hb => escapeByte_of_le (hlong b hb),
        ← List.flatMap_def, List.flatMap_singleton']
    refine ⟨String.ofList [c], ?_⟩
    rw [hkept, Bytes.ofText_ofList, List.flatMap_singleton]

theorem isUtf8_renderText (s : String) : IsUtf8 (renderText s) := by
  have hquote : IsUtf8 [34] := .ofText "\""
  have hbody : IsUtf8 ((Bytes.ofText s).flatMap escapeByte) := by
    rw [Bytes.ofText_eq_flatMap, List.flatMap_assoc]
    exact .flatMap fun c _ => isUtf8_escapeChar c
  exact (hquote.append hbody).append hquote

theorem isUtf8_renderMember {m : String × Json} (h : IsUtf8 m.2.render) :
    IsUtf8 (renderMember m) := by
  have hcolon : IsUtf8 [58] := .ofText ":"
  exact (isUtf8_renderText m.1).append (hcolon.append h)

/-- The text of a value is UTF-8. -/
theorem isUtf8_render {n : Nat} {v : Json} (h : Nests n v) : IsUtf8 v.render := by
  have hcomma : IsUtf8 [44] := .ofText ","
  have hempty : IsUtf8 [] := .ofText ""
  have hword (word : String) : IsUtf8 (Bytes.ofText word) := .ofText word
  induction h with
  | null => exact hword "null"
  | bool b =>
    cases b with
    | true => exact hword "true"
    | false => exact hword "false"
  | text s =>
    rw [render]
    exact isUtf8_renderText s
  | @array n items _ ih =>
    have hitems : IsUtf8 (renderItems items) := by
      cases items with
      | nil => exact hempty
      | cons item rest =>
        rw [renderItems_cons]
        refine (ih item List.mem_cons_self).append (.flatMap fun next hnext => ?_)
        exact hcomma.append (ih next (List.mem_cons_of_mem _ hnext))
    rw [render]
    exact ((hword "[").append hitems).append (hword "]")
  | @object n members _ ih =>
    have hmembers : IsUtf8 (renderMembers members) := by
      cases members with
      | nil => exact hempty
      | cons m rest =>
        rw [renderMembers_cons]
        refine (isUtf8_renderMember (ih m List.mem_cons_self)).append (.flatMap fun m hm => ?_)
        exact hcomma.append (isUtf8_renderMember (ih m (List.mem_cons_of_mem _ hm)))
    rw [render]
    exact ((hword "\x7b").append hmembers).append (hword "\x7d")

/-- A value without brackets is read as it was written, from its first byte on. -/
theorem readScalar_render {v : Json} (h : Nests 0 v) :
    ∃ c text, v.render = c :: text ∧ isSpace c = false ∧ Bracket.opens c = none ∧
      ∀ rest, readScalar c (text ++ rest) = .ok (v, rest) := by
  obtain ⟨c, text, hhead, hspace, -⟩ := render_head h
  have hread (rest : Bytes) : readValue (v.render.length + 1) 0 (c :: (text ++ rest)) =
      .ok (v.arrange, rest) := by
    have hback := readsBack h (v.render.length + 1) rest (by omega)
    rwa [hhead, List.cons_append, ← hhead] at hback
  have harrange : v.arrange = v := by
    cases h with
    | null => rw [arrange]
    | bool b => rw [arrange]
    | text s => rw [arrange]
  have hscalar : Bracket.opens c = none := by
    cases hopens : Bracket.opens c with
    | none => rfl
    | some bracket =>
      have hback := hread []
      rw [readValue, skipSpace_cons hspace] at hback
      simp only [hopens] at hback
      cases hback
  refine ⟨c, text, hhead, hspace, hscalar, fun rest => ?_⟩
  have hback := hread rest
  rwa [readValue_scalar hspace hscalar, harrange] at hback

end Json

/-! ## Reading members back -/

namespace Settings

open Json (Nests renderMember)

/-- The settings with members replaced one after another. -/
def setAll? (s : Settings) : List (Key × Json) → Option Settings
  | [] => some s
  | (key, value) :: rest => (s.set? key value).bind (setAll? · rest)

/-- The members that settings have. -/
def members (s : Settings) : List (Key × Json) :=
  Key.all.filterMap fun k => (s.get? k).map (k, ·)

/-- The member of a key by its name. -/
def named (m : Key × Json) : String × Json := (m.1.name, m.2)

theorem toJson_eq (s : Settings) : s.toJson = .object (s.members.map named) := by
  simp only [toJson, members, List.map_filterMap, Option.map_map]
  rfl

/-- Only paths have no member when they are not set, and they are not set by default. -/
theorem setAll?_members (s : Settings) : default.setAll? s.members = some s := by
  obtain ⟨enabled, sync, mining, progress, genesisFile, outputPath, node, chain⟩ := s
  cases genesisFile with
  | none => cases outputPath <;> rfl
  | some path => cases outputPath <;> rfl

theorem nests_of_get? {s : Settings} {key : Key} {v : Json} (h : s.get? key = some v) :
    Nests 0 v := by
  cases key with
  | enabled | syncInstrumentation | mining | blockProgress =>
    obtain rfl := Option.some.inj h
    exact .bool _
  | nodeVersion | chainVariant =>
    obtain rfl := Option.some.inj h
    exact .text _
  | genesisFile | outputPath =>
    obtain ⟨path, -, rfl⟩ := Option.map_eq_some_iff.mp h
    exact .text path

theorem nests_of_mem_members {s : Settings} {m : Key × Json} (h : m ∈ s.members) :
    Nests 0 m.2 := by
  obtain ⟨key, -, hm⟩ := List.mem_filterMap.mp h
  obtain ⟨v, hv, rfl⟩ := Option.map_eq_some_iff.mp hm
  exact nests_of_get? hv

theorem nodup_members (s : Settings) : (s.members.map Prod.fst).Nodup := by
  have hsub (keys : List Key) :
      ((keys.filterMap fun k => (s.get? k).map (k, ·)).map Prod.fst).Sublist keys := by
    induction keys with
    | nil => exact .slnil
    | cons k keys ih =>
      cases hmember : s.get? k with
      | none => simpa [hmember] using ih.cons k
      | some v => simpa [hmember] using ih.cons_cons k
  have hall : Key.all.Nodup := by decide
  exact (hsub Key.all).nodup hall

theorem readMember_render {s t : Settings} {key : Key} {v : Json} (h : Nests 0 v)
    (hset : s.set? key v = some t) (rest : Bytes) :
    readMember s key (v.render ++ rest) = .ok (t, rest) := by
  obtain ⟨c, text, hhead, hspace, hscalar, hread⟩ := Json.readScalar_render h
  rw [hhead, List.cons_append, readMember, Json.skipSpace_cons hspace]
  simp only [hscalar, hread, hset, bind, Except.bind, pure, Except.pure, Option.isSome_none,
    Bool.false_eq_true, if_false]

section Members

variable {steps : Nat} {seen : List Key}

/-- A member is read at the place where it was written. -/
theorem readObject_member {s t : Settings} {m : Key × Json} (h : Nests 0 m.2)
    (hseen : m.1 ∉ seen) (hset : s.set? m.1 m.2 = some t) {isFirst : Bool} {b : Bytes}
    (rest : Bytes)
    (hnext : Json.nextItem .object isFirst b = .ok (true, renderMember (named m) ++ rest)) :
    readObject (steps + 1) isFirst seen s b = readObject steps false (m.1 :: seen) t rest := by
  have hkey : Json.readKey (renderMember (named m) ++ rest) =
      .ok (m.1.name, 58 :: (m.2.render ++ rest)) := Json.readKey_member (named m) rest
  have hmember := readMember_render h hset rest
  rw [readObject, hnext]
  simp only [bind, Except.bind, hkey, Key.ofName?_name, Json.readColon_cons, hmember, hseen,
    not_true, if_false]

/-- The members that follow are read onto the settings so far, each with a step of its own. -/
theorem readObject_more {s t : Settings} {members : List (Key × Json)}
    (h : ∀ m ∈ members, Nests 0 m.2) (hkeys : (members.map Prod.fst).Nodup)
    (hseen : ∀ m ∈ members, m.1 ∉ seen) (hset : s.setAll? members = some t)
    (hsteps : members.length < steps) (rest : Bytes) :
    readObject steps false seen s
        (members.flatMap (fun m => 44 :: renderMember (named m)) ++ 125 :: rest) =
      .ok (t, rest) := by
  induction members generalizing steps seen s with
  | nil =>
    obtain ⟨steps, rfl⟩ := Nat.exists_eq_add_one_of_ne_zero (by omega : steps ≠ 0)
    obtain rfl := Option.some.inj hset
    have hclose : Json.nextItem .object false (125 :: rest) = .ok (false, rest) :=
      Json.nextItem_close .object false rest
    rw [List.flatMap_nil, List.nil_append, readObject, hclose]
    rfl
  | cons m members ih =>
    obtain ⟨steps, rfl⟩ := Nat.exists_eq_add_one_of_ne_zero (by omega : steps ≠ 0)
    obtain ⟨u, hu, hrest⟩ := Option.bind_eq_some_iff.mp hset
    obtain ⟨hfresh, hkeys⟩ := List.nodup_cons.mp hkeys
    rw [List.length_cons] at hsteps
    rw [List.flatMap_cons, List.append_assoc, List.cons_append,
      readObject_member (h m List.mem_cons_self) (hseen m List.mem_cons_self) hu _
        (Json.nextItem_comma ..)]
    refine ih (fun m hm => h m (List.mem_cons_of_mem _ hm)) hkeys (fun next hnext => ?_) hrest
      (by omega)
    rw [List.mem_cons, not_or]
    refine ⟨fun heq => hfresh (heq ▸ List.mem_map_of_mem hnext), ?_⟩
    exact hseen next (List.mem_cons_of_mem _ hnext)

/-- Members of different keys are read onto the default settings. -/
theorem readObject_first {t : Settings} {members : List (Key × Json)}
    (h : ∀ m ∈ members, Nests 0 m.2) (hkeys : (members.map Prod.fst).Nodup)
    (hset : default.setAll? members = some t) (hsteps : members.length < steps) (rest : Bytes) :
    readObject steps true [] default
        (Json.renderMembers (members.map named) ++ 125 :: rest) = .ok (t, rest) := by
  obtain ⟨steps, rfl⟩ := Nat.exists_eq_add_one_of_ne_zero (by omega : steps ≠ 0)
  cases members with
  | nil =>
    obtain rfl := Option.some.inj hset
    have hclose : Json.nextItem .object true (125 :: rest) = .ok (false, rest) :=
      Json.nextItem_close .object true rest
    rw [List.map_nil, Json.renderMembers, List.nil_append, readObject, hclose]
    rfl
  | cons m members =>
    obtain ⟨u, hu, hrest⟩ := Option.bind_eq_some_iff.mp hset
    obtain ⟨hfresh, hkeys⟩ := List.nodup_cons.mp hkeys
    have hnext (rest : Bytes) : Json.nextItem .object true (renderMember (named m) ++ rest) =
        .ok (true, renderMember (named m) ++ rest) := by
      rw [renderMember, Json.renderText]
      exact Json.nextItem_first rfl (by decide) _
    rw [List.length_cons] at hsteps
    rw [List.map_cons, Json.renderMembers_cons, List.append_assoc, List.flatMap_map,
      readObject_member (h m List.mem_cons_self) List.not_mem_nil hu _ (hnext _)]
    refine readObject_more (fun m hm => h m (List.mem_cons_of_mem _ hm)) hkeys
      (fun next hnext => ?_) hrest (by omega) rest
    rw [List.mem_singleton]
    exact fun heq => hfresh (heq ▸ List.mem_map_of_mem hnext)

end Members

/-- Every member of an object takes up some of its text. -/
theorem length_le_renderMembers (members : List (String × Json)) :
    members.length ≤ (Json.renderMembers members).length := by
  have hmore (members : List (String × Json)) :
      members.length ≤ (members.flatMap (44 :: renderMember ·)).length := by
    induction members with
    | nil => simp
    | cons m members ih =>
      rw [List.flatMap_cons, List.length_append, List.length_cons, List.length_cons]
      omega
  cases members with
  | nil => simp
  | cons m members =>
    have hfirst : 0 < (renderMember m).length := by
      rw [renderMember, List.length_append, List.length_cons]
      omega
    have hrest := hmore members
    rw [Json.renderMembers_cons, List.length_append, List.length_cons]
    omega

theorem render_eq (s : Settings) :
    s.render = 123 :: (Json.renderMembers (s.members.map named) ++ [125]) := by
  rw [render, toJson_eq, Json.render, List.cons_append]

theorem read_render (s : Settings) : read s.render = .ok s := by
  set text := Json.renderMembers (s.members.map named) ++ [125] with htext
  have hsteps : s.members.length < Json.stepLimit text := by
    have hlength := length_le_renderMembers (s.members.map named)
    rw [List.length_map] at hlength
    rw [Json.stepLimit, htext, List.length_append]
    omega
  have hobject : readObject (Json.stepLimit text) true [] default text = .ok (s, []) :=
    readObject_first (fun _ hm => nests_of_mem_members hm) s.nodup_members s.setAll?_members
      hsteps []
  have hvalue : readValue s.render = .ok (s, []) := by
    rw [render_eq, readValue, Json.skipSpace_cons rfl]
    exact hobject
  rw [read, hvalue]
  rfl

theorem isUtf8_render (s : Settings) : Bytes.IsUtf8 s.render := by
  have hnests : Nests 1 s.toJson := by
    rw [toJson_eq]
    refine .object fun m hm => ?_
    obtain ⟨member, hmember, rfl⟩ := List.mem_map.mp hm
    exact nests_of_mem_members hmember
  exact Json.isUtf8_render hnests

end Settings

/-! ## Saving -/

/-- What was put where a path leads is read from there. -/
theorem Files.read_put {files : Files} {path : String} {there : Location} {before : Bytes}
    (h : files.openToWrite path = .ok (there, before)) (b : Bytes) :
    (files.put there b).read path = .ok b := by
  obtain ⟨p, here, name, hpath, hfollow, hlast, hslash, hfile, rfl, -⟩ := openToWrite_eq_ok.mp h
  have hplace : (files.put (here.child name) b).look here name =
      .ok (.file (here.child name) b) := by
    rw [look_of_namesFile hfile, place, content?_put]
  have hopen : (files.put (here.child name) b).open? path = .ok (some b) := by
    refine bind_eq_ok.mpr ⟨p, hpath, bind_eq_ok.mpr ⟨here, follow_of_follow _ hfollow, ?_⟩⟩
    simp only [hlast]
    refine bind_eq_ok.mpr ⟨_, hplace, ?_⟩
    simp only [hslash, Bool.false_eq_true, if_false]
    rfl
  exact bind_eq_ok.mpr ⟨_, hopen, rfl⟩

namespace Settings

/-- The settings in the file at a path, once their text is all that it holds. -/
theorem load_of_read {s : Settings} {files : Files} {path : String}
    (h : files.read path = .ok s.render) : load files (some path) = .ok s := by
  have htext : ofText s.render = .ok s := by rw [ofText, read_render]
  simp only [load, ofFile, h, s.isUtf8_render.isSome_text?, if_true, htext]

/-- The text of any settings is decoded to the same settings, those paths that are not set among
them; and so the settings that are written to a file are loaded from there. -/
theorem saved_settings_load_back (s : Settings) :
    (∃ text : String, s.render = Bytes.ofText text ∧ ofText (Bytes.ofText text) = .ok s) ∧
    ∀ (files made : Files) (path : String), files.create path = .ok made →
      ∃ saved, made.append path s.render = .ok saved ∧ load saved (some path) = .ok s := by
  refine ⟨?_, fun files made path hcreate => ?_⟩
  · obtain ⟨text, htext⟩ := s.isUtf8_render
    refine ⟨text, htext.symm, ?_⟩
    rw [htext, ofText, read_render]
  · obtain ⟨⟨there, before⟩, hopen, hmade⟩ := bind_eq_ok.mp hcreate
    obtain rfl := pure_eq_ok.mp hmade
    have hempty := Files.openToWrite_put hopen []
    refine ⟨_, Files.append_of_openToWrite hempty s.render, load_of_read ?_⟩
    exact Files.read_put hempty ([] ++ s.render)

/-- Texts with much that is escaped, and with characters of two and of four bytes. -/
def oddSettings : Settings :=
  { default with
    syncInstrumentation := false
    outputPath := some "a\"b\\c"
    nodeVersion := "\n\x01\x7f"
    chainVariant := "é𝄞" }

theorem splitOn_letter : "n".splitOn "/" = ["n"] := by
  unfold String.splitOn
  rw [if_neg (by decide)]
  unfold String.splitOnAux
  rw [if_neg (by decide +kernel), if_neg (by decide +kernel)]
  unfold String.splitOnAux
  rw [if_pos (by decide +kernel)]
  decide +kernel

theorem openToWrite_letter :
    Files.openToWrite ⟨[]⟩ "n" = .ok (Location.working.child "n", []) := by
  have hslash : "n".endsWith "/" = false := by decide +kernel
  have hshort : ¬ Path.lengthLimit < "n".utf8ByteSize := by decide
  have hpath : Path.ofText "n" = .ok ⟨.working, [], some "n", false⟩ := by
    simp [Path.ofText, hslash, hshort, splitOn_letter]
  have hfile : Files.NamesFile .working "n" := ⟨by decide, by decide, by decide⟩
  exact Files.openToWrite_eq_ok.mpr ⟨_, _, _, hpath, rfl, rfl, rfl, hfile, rfl, rfl⟩

theorem saved_settings_load_back_odd :
    oddSettings.render = Bytes.ofText ("\x7b\"enabled\":false," ++
      "\"sync_instrumentation_enabled\":false,\"mining_enabled\":false," ++
      "\"block_progress_enabled\":false,\"output_path\":\"a\\\"b\\\\c\"," ++
      "\"node_version\":\"\\n\\u0001\x7f\",\"chain_variant\":\"é𝄞\"\x7d") ∧
    ∃ made saved, Files.create ⟨[]⟩ "n" = .ok made ∧
      made.append "n" oddSettings.render = .ok saved ∧ load saved (some "n") = .ok oddSettings := by
  have hcreate : Files.create ⟨[]⟩ "n" = .ok _ := bind_eq_ok.mpr ⟨_, openToWrite_letter, rfl⟩
  obtain ⟨saved, hsaved, hload⟩ := (saved_settings_load_back oddSettings).2 _ _ _ hcreate
  exact ⟨rfl, _, saved, hcreate, hsaved, hload⟩

end Settings
end EvmTrace
