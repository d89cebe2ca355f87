import EvmTrace.Proofs.SavedSettings
import EvmTrace.Proofs.Skipping
import Mathlib.Data.List.Perm.Basic

/-!
# Settings in any text

Whatever an object looks like, only the members with the name of a key count: they are folded onto
the default settings one after another, and all others are passed over. An array does what the
object does that gives the same values to the first keys.
-/
namespace EvmTrace

namespace Json

/-- An object with the blanks around and in it. -/
structure ObjectText where
  before : Bytes
  gap : Bytes
  members : List Member
  behind : Bytes
  isBlank : IsBlank before ∧ IsBlank gap ∧ IsBlank behind

namespace ObjectText

def bytes (o : ObjectText) : Bytes :=
  o.before ++ 123 :: (o.gap ++ (separated (o.members.map Member.bytes) ++ 125 :: o.behind))

def IsWellFormed (o : ObjectText) : Prop := ∀ m ∈ o.members, IsValue m.value.text

/-- Each name spells a text, so none holds half a character. -/
def IsSpelled (o : ObjectText) : Prop := ∀ m ∈ o.members, (Text.spelled? m.name).isSome

instance (o : ObjectText) : Decidable o.IsSpelled :=
  inferInstanceAs (Decidable (∀ m ∈ o.members, (Text.spelled? m.name).isSome))

end ObjectText

/-- An array with the blanks around and in it. -/
structure ArrayText where
  before : Bytes
  gap : Bytes
  items : List Item
  behind : Bytes
  isBlank : IsBlank before ∧ IsBlank gap ∧ IsBlank behind

namespace ArrayText

def bytes (a : ArrayText) : Bytes :=
  a.before ++ 91 :: (a.gap ++ (separated (a.items.map Item.bytes) ++ 93 :: a.behind))

def IsWellFormed (a : ArrayText) : Prop := ∀ i ∈ a.items, IsValue i.text

end ArrayText

section Blanks

variable {gap : Bytes}

theorem nextItem_blank (hgap : IsBlank gap) (bracket : Bracket) (isFirst : Bool) (b : Bytes) :
    nextItem bracket isFirst (gap ++ b) = nextItem bracket isFirst b := by
  rw [nextItem, skipSpace_append hgap, nextItem]

/-- The name of a member up to its closing quote. -/
theorem readKey_name (hgap : IsBlank gap) (m : Member) (rest : Bytes) :
    readKey (gap ++ 34 :: (m.body ++ rest)) =
      (Text.spelled? m.name).elim (.error .malformed)
        fun s => .ok (s, m.gap ++ 58 :: (m.value.bytes ++ rest)) := by
  have hbody : m.body ++ rest = m.name.flatMap Text.Piece.bytes ++
      34 :: (m.gap ++ 58 :: (m.value.bytes ++ rest)) := by simp [Member.body]
  rw [readKey, skipSpace_append hgap, skipSpace_cons rfl, hbody]
  simp only [if_true, Text.read_pieces]

end Blanks

end Json

namespace Settings

open Json

/-! ## The value of a key -/

/-- What comes of a value for a key. -/
def setTo (s : Settings) (key : Key) (x : Bytes) : Except ReadError Settings :=
  (readMember s key x).map Prod.fst

section Values

variable {s t : Settings} {key : Key} {x gap rest : Bytes}

/-- A scalar that was read is judged by its type. -/
theorem readMember_scalar {c : UInt8} {text : Bytes} {r : Except ReadError Json}
    (h : ReadsScalar c text r) (s : Settings) (key : Key) (hrest : Stops rest) :
    readMember s key (c :: (text ++ rest)) =
      (r.bind fun v => (s.set? key v).elim (.error .mismatch) .ok).map (·, rest) := by
  rw [readMember, skipSpace_cons h.space]
  simp only [h.opens, h.read rest hrest, Option.isSome_none, Bool.false_eq_true, if_false]
  cases r with
  | error e => rfl
  | ok v =>
    simp only [Except.map, Except.bind, bind]
    cases s.set? key v <;> rfl

theorem readMember_opens {c : UInt8} {bracket : Bracket} (hspace : isSpace c = false)
    (hopens : Bracket.opens c = some bracket) (s : Settings) (key : Key) (rest : Bytes) :
    readMember s key (c :: rest) = .error .mismatch := by
  rw [readMember, skipSpace_cons hspace]
  simp only [hopens, Option.isSome_some, if_true]

theorem readMember_blank (hgap : IsBlank gap) (s : Settings) (key : Key) (b : Bytes) :
    readMember s key (gap ++ b) = readMember s key b := by
  rw [readMember, skipSpace_append hgap, readMember]

theorem set?_number (s : Settings) (key : Key) (n : Number) : s.set? key (.number n) = none := by
  cases key <;> rfl

theorem setTo_scalar {c : UInt8} {text : Bytes} {r : Except ReadError Json}
    (h : ReadsScalar c text r) (s : Settings) (key : Key) :
    setTo s key (c :: text) = r.bind fun v => (s.set? key v).elim (.error .mismatch) .ok := by
  have hend := readMember_scalar h s key stops_nil
  rw [List.append_nil] at hend
  rw [setTo, hend]
  cases r.bind fun v => (s.set? key v).elim (.error .mismatch) .ok <;> rfl

/-- What comes of a value for a key does not depend on the blanks before it or on what stands
behind it. -/
theorem readMember_value (h : IsValue x) (s : Settings) (key : Key) (hgap : IsBlank gap)
    (hrest : Stops rest) :
    readMember s key (gap ++ (x ++ rest)) = (setTo s key x).map (·, rest) := by
  rw [readMember_blank hgap]
  cases h with
  | scalar hx =>
    obtain ⟨c, text, r, rfl, hreads, -⟩ := readsScalar hx
    rw [List.cons_append, readMember_scalar hreads s key hrest, setTo_scalar hreads]
  | array =>
    rw [setTo, List.cons_append, readMember_opens rfl rfl, readMember_opens rfl rfl]
    rfl
  | object =>
    rw [setTo, List.cons_append, readMember_opens rfl rfl, readMember_opens rfl rfl]
    rfl

/-- A value gives settings if it denotes one of the right type. -/
theorem setTo_eq_ok (h : IsValue x) :
    setTo s key x = .ok t ↔ ∃ v, Denotes x v ∧ s.set? key v = some t := by
  cases h with
  | scalar hx =>
    obtain ⟨c, text, r, rfl, hreads, hdenotes⟩ := readsScalar hx
    rw [setTo_scalar hreads]
    constructor
    · intro ht
      cases r with
      | error e => cases ht
      | ok v =>
        obtain hv | ⟨n, rfl⟩ := hdenotes v rfl
        · cases hset : s.set? key v with
          | none =>
            simp only [Except.bind, hset] at ht
            cases ht
          | some u =>
            simp only [Except.bind, hset] at ht
            obtain rfl := Except.ok.inj ht
            exact ⟨v, hv, hset⟩
        · simp only [Except.bind, set?_number] at ht
          cases ht
    · rintro ⟨v, hv, ht⟩
      have hread := hreads.read [] stops_nil
      rw [List.append_nil, readScalar_of_denotes hv] at hread
      cases r with
      | error e => cases hread
      | ok w =>
        obtain rfl : v = w := (Prod.mk.inj (Except.ok.inj hread)).1
        simp only [Except.bind, ht, Option.elim_some]
  | array =>
    rw [setTo, readMember_opens rfl rfl]
    exact ⟨fun h => (nomatch h), fun ⟨_, hv, _⟩ => (nomatch hv.opens_eq_none)⟩
  | object =>
    rw [setTo, readMember_opens rfl rfl]
    exact ⟨fun h => (nomatch h), fun ⟨_, hv, _⟩ => (nomatch hv.opens_eq_none)⟩

end Values

/-! ## Objects -/

/-- What one member does to the keys that were seen and to the settings. -/
def takeMember : List Key × Settings → Member → Except ReadError (List Key × Settings)
  | (seen, s), m =>
    match Text.spelled? m.name with
    | none => .error .malformed
    | some name =>
      match Key.ofName? name with
      | none => .ok (seen, s)
      | some key =>
        if key ∈ seen then .error .mismatch
        else (setTo s key m.value.text).map (key :: seen, ·)

section Objects

variable {steps : Nat} {gap rest : Bytes}

/-- A member is taken wherever the reader finds it, and the blanks behind it are left. -/
theorem readObject_next {m : Member} (h : IsValue m.value.text) {isFirst : Bool} {b : Bytes}
    (hgap : IsBlank gap) (hrest : Stops rest)
    (hnext : nextItem .object isFirst b = .ok (true, gap ++ 34 :: (m.body ++ rest)))
    (seen : List Key) (s : Settings) :
    readObject (steps + 1) isFirst seen s b =
      takeMember (seen, s) m >>= fun p =>
        readObject steps false p.1 p.2 (m.value.behind ++ rest) := by
  have hbehind : Stops (m.value.behind ++ rest) := hrest.append m.value.isBlank.2
  have hvalue : m.value.bytes ++ rest =
      m.value.before ++ (m.value.text ++ (m.value.behind ++ rest)) := by simp [Item.bytes]
  rw [readObject, hnext]
  simp only [ok_bind, not_true, if_false, readKey_name hgap, takeMember]
  cases Text.spelled? m.name with
  | none => rfl
  | some name =>
    simp only [Option.elim_some, ok_bind]
    cases Key.ofName? name with
    | none =>
      simp only [readColon_blank m.isBlank.2, ok_bind, hvalue,
        skipValue_append h m.value.isBlank.1 hbehind]
    | some key =>
      simp only [readColon_blank m.isBlank.2, ok_bind, hvalue,
        readMember_value h s key m.value.isBlank.1 hbehind]
      split
      · rfl
      · cases setTo s key m.value.text <;> rfl

theorem readObject_rest {members : List Member} (h : ∀ m ∈ members, IsValue m.value.text)
    (hgap : IsBlank gap) (hsteps : members.length < steps) (seen : List Key) (s : Settings) :
    readObject steps false seen s
        (gap ++ ((members.map Member.bytes).flatMap (44 :: ·) ++ 125 :: rest)) =
      (members.foldlM takeMember (seen, s)).map fun p => (p.2, rest) := by
  -- the blanks before a comma are those behind the value before it, so the induction is for any
  induction members generalizing steps gap seen s with
  | nil =>
    obtain ⟨steps, rfl⟩ := Nat.exists_eq_add_one_of_ne_zero (by omega : steps ≠ 0)
    have hclose : nextItem .object false (gap ++ 125 :: rest) = .ok (false, rest) := by
      rw [nextItem_blank hgap]
      exact nextItem_close .object false rest
    rw [List.map_nil, List.flatMap_nil, List.nil_append, readObject, hclose]
    rfl
  | cons m members ih =>
    obtain ⟨steps, rfl⟩ := Nat.exists_eq_add_one_of_ne_zero (by omega : steps ≠ 0)
    set more := (members.map Member.bytes).flatMap (44 :: ·) ++ 125 :: rest with hmore
    have hstops : Stops more := stops_more .object _ rest
    have hnext : nextItem .object false
        (gap ++ (((m :: members).map Member.bytes).flatMap (44 :: ·) ++ 125 :: rest)) =
          .ok (true, m.before ++ 34 :: (m.body ++ more)) := by
      have hbytes : ((m :: members).map Member.bytes).flatMap (44 :: ·) ++ 125 :: rest =
          44 :: (m.before ++ 34 :: (m.body ++ more)) := by
        simp [Member.bytes, hmore]
      rw [nextItem_blank hgap, hbytes, nextItem_comma]
    rw [List.length_cons] at hsteps
    rw [readObject_next (h m List.mem_cons_self) m.isBlank.1 hstops hnext, List.foldlM_cons,
      map_bind_eq]
    refine congrArg _ (funext fun p => ?_)
    exact ih (fun n hn => h n (List.mem_cons_of_mem _ hn)) m.value.isBlank.2 (by omega) p.1 p.2

/-- Reading an object folds its members. -/
theorem readObject_eq {members : List Member} (h : ∀ m ∈ members, IsValue m.value.text)
    (hgap : IsBlank gap) (hsteps : members.length < steps) (s : Settings) :
    readObject steps true [] s
        (gap ++ (separated (members.map Member.bytes) ++ 125 :: rest)) =
      (members.foldlM takeMember ([], s)).map fun p => (p.2, rest) := by
  obtain ⟨steps, rfl⟩ := Nat.exists_eq_add_one_of_ne_zero (by omega : steps ≠ 0)
  cases members with
  | nil =>
    have hclose : nextItem .object true (gap ++ 125 :: rest) = .ok (false, rest) := by
      rw [nextItem_blank hgap]
      exact nextItem_close .object true rest
    rw [List.map_nil, separated, List.nil_append, readObject, hclose]
    rfl
  | cons m members =>
    set more := (members.map Member.bytes).flatMap (44 :: ·) ++ 125 :: rest with hmore
    have hstops : Stops more := stops_more .object _ rest
    have hnext : nextItem .object true
        (gap ++ (separated ((m :: members).map Member.bytes) ++ 125 :: rest)) =
          .ok (true, [] ++ 34 :: (m.body ++ more)) := by
      have hbytes : separated ((m :: members).map Member.bytes) ++ 125 :: rest =
          m.before ++ 34 :: (m.body ++ more) := by
        simp [separated, Member.bytes, hmore]
      rw [nextItem_blank hgap, hbytes, nextItem_blank m.isBlank.1]
      exact nextItem_first rfl (by decide) _
    rw [List.length_cons] at hsteps
    rw [readObject_next (h m List.mem_cons_self) isBlank_nil hstops hnext,
      List.foldlM_cons, map_bind_eq]
    refine congrArg _ (funext fun p => ?_)
    exact readObject_rest (fun n hn => h n (List.mem_cons_of_mem _ hn)) m.value.isBlank.2
      (by omega) p.1 p.2

end Objects

theorem finish_map {α β : Type} {behind : Bytes} (h : IsBlank behind) (x : Except ReadError α)
    (f : α → β) : finish (x.map fun a => (f a, behind)) = x.map f := by
  have hend : skipSpace behind = [] := by
    have hblank := skipSpace_append h []
    rwa [List.append_nil] at hblank
  cases x with
  | error e => rfl
  | ok a =>
    simp only [Except.map, finish, hend, List.isEmpty_nil, if_true]

/-- Reads a value onto settings that need not be the default ones. -/
def readValueOnto (s : Settings) (b : Bytes) : Except ReadError (Settings × Bytes) :=
  match skipSpace b with
  | [] => .error .unfinished
  | c :: rest =>
    match Bracket.opens c with
    | some .array => readArray Key.all true s rest
    | some .object => readObject (stepLimit rest) true [] s rest
    | none => do
      let _ ← readScalar c rest
      throw .mismatch

def readOnto (s : Settings) (b : Bytes) : Except ReadError Settings := finish (readValueOnto s b)

theorem readOnto_default (b : Bytes) : readOnto default b = read b := rfl

theorem readOnto_object {o : ObjectText} (ho : o.IsWellFormed) (s : Settings) :
    readOnto s o.bytes = (o.members.foldlM takeMember ([], s)).map Prod.snd := by
  obtain ⟨hbefore, hgap, hbehind⟩ := o.isBlank
  set text := o.gap ++ (separated (o.members.map Member.bytes) ++ 125 :: o.behind) with htext
  have hsteps : o.members.length < stepLimit text := by
    have hlength := length_le_separated (o.members.map Member.bytes)
    simp only [htext, stepLimit, List.length_append, List.length_cons, List.length_map] at hlength ⊢
    omega
  have hvalue : readValueOnto s o.bytes = readObject (stepLimit text) true [] s text := by
    rw [readValueOnto, ObjectText.bytes, skipSpace_append hbefore, skipSpace_cons rfl]
    rfl
  rw [readOnto, hvalue, htext, readObject_eq ho hgap hsteps, finish_map hbehind]

/-! ## Arrays -/

def takeItem (s : Settings) (p : Key × Item) : Except ReadError Settings := setTo s p.1 p.2.text

section Arrays

variable {gap rest : Bytes} {key : Key} {keys : List Key}

/-- An item is taken wherever the reader finds it, and the blanks behind it are left. -/
theorem readArray_next {i : Item} (h : IsValue i.text) {isFirst : Bool} {b : Bytes}
    (hgap : IsBlank gap) (hrest : Stops rest)
    (hnext : nextItem .array isFirst b = .ok (true, gap ++ (i.text ++ (i.behind ++ rest))))
    (s : Settings) :
    readArray (key :: keys) isFirst s b =
      takeItem s (key, i) >>= fun s => readArray keys false s (i.behind ++ rest) := by
  rw [readArray, hnext]
  simp only [ok_bind, not_true, if_false, readMember_value h s key hgap (hrest.append i.isBlank.2),
    takeItem]
  cases setTo s key i.text <;> rfl

theorem readArray_close (hgap : IsBlank gap) (keys : List Key) (isFirst : Bool) (s : Settings) :
    readArray keys isFirst s (gap ++ 93 :: rest) = .ok (s, rest) := by
  cases keys with
  | nil =>
    rw [readArray, skipSpace_append hgap]
    rfl
  | cons key keys =>
    have hclose : nextItem .array isFirst (gap ++ 93 :: rest) = .ok (false, rest) := by
      rw [nextItem_blank hgap]
      exact nextItem_close .array isFirst rest
    rw [readArray, hclose]
    rfl

theorem readArray_rest {items : List Item} (h : ∀ i ∈ items, IsValue i.text)
    (hgap : IsBlank gap) (hlength : items.length ≤ keys.length) (s : Settings) :
    readArray keys false s (gap ++ ((items.map Item.bytes).flatMap (44 :: ·) ++ 93 :: rest)) =
      ((keys.zip items).foldlM takeItem s).map (·, rest) := by
  induction items generalizing keys gap s with
  | nil =>
    rw [List.map_nil, List.flatMap_nil, List.nil_append, readArray_close hgap, List.zip_nil_right]
    rfl
  | cons i items ih =>
    obtain ⟨key, keys, rfl⟩ :=
      List.exists_cons_of_length_pos (Nat.lt_of_lt_of_le (Nat.succ_pos _) hlength)
    set more := (items.map Item.bytes).flatMap (44 :: ·) ++ 93 :: rest with hmore
    have hnext : nextItem .array false
        (gap ++ (((i :: items).map Item.bytes).flatMap (44 :: ·) ++ 93 :: rest)) =
          .ok (true, i.before ++ (i.text ++ (i.behind ++ more))) := by
      have hbytes : ((i :: items).map Item.bytes).flatMap (44 :: ·) ++ 93 :: rest =
          44 :: (i.before ++ (i.text ++ (i.behind ++ more))) := by
        simp [Item.bytes, hmore]
      rw [nextItem_blank hgap, hbytes, nextItem_comma]
    rw [readArray_next (h i List.mem_cons_self) i.isBlank.1 (stops_more .array _ rest) hnext,
      List.zip_cons_cons, List.foldlM_cons, map_bind_eq]
    refine congrArg _ (funext fun s => ?_)
    exact ih (fun j hj => h j (List.mem_cons_of_mem _ hj)) i.isBlank.2
      (Nat.le_of_succ_le_succ hlength) s

/-- Reading an array folds its items, each with the key at its place. -/
theorem readArray_eq {items : List Item} (h : ∀ i ∈ items, IsValue i.text) (hgap : IsBlank gap)
    (hlength : items.length ≤ keys.length) (s : Settings) :
    readArray keys true s (gap ++ (separated (items.map Item.bytes) ++ 93 :: rest)) =
      ((keys.zip items).foldlM takeItem s).map (·, rest) := by
  cases items with
  | nil =>
    rw [List.map_nil, separated, List.nil_append, readArray_close hgap, List.zip_nil_right]
    rfl
  | cons i items =>
    obtain ⟨key, keys, rfl⟩ :=
      List.exists_cons_of_length_pos (Nat.lt_of_lt_of_le (Nat.succ_pos _) hlength)
    obtain ⟨c, text, htext, hopens, -⟩ := passesOver (h i List.mem_cons_self)
    set more := (items.map Item.bytes).flatMap (44 :: ·) ++ 93 :: rest with hmore
    have hnext : nextItem .array true
        (gap ++ (separated ((i :: items).map Item.bytes) ++ 93 :: rest)) =
          .ok (true, [] ++ (i.text ++ (i.behind ++ more))) := by
      have hbytes : separated ((i :: items).map Item.bytes) ++ 93 :: rest =
          i.before ++ (i.text ++ (i.behind ++ more)) := by
        simp [separated, Item.bytes, hmore]
      rw [nextItem_blank hgap, hbytes, nextItem_blank i.isBlank.1, htext]
      exact nextItem_first hopens.space (hopens.close .array) _
    rw [readArray_next (h i List.mem_cons_self) isBlank_nil (stops_more .array _ rest) hnext,
      List.zip_cons_cons, List.foldlM_cons, map_bind_eq]
    refine congrArg _ (funext fun s => ?_)
    exact readArray_rest (fun j hj => h j (List.mem_cons_of_mem _ hj)) i.isBlank.2
      (Nat.le_of_succ_le_succ hlength) s

end Arrays

theorem readOnto_array {a : ArrayText} (ha : a.IsWellFormed)
    (hlength : a.items.length ≤ Key.all.length) (s : Settings) :
    readOnto s a.bytes = (Key.all.zip a.items).foldlM takeItem s := by
  obtain ⟨hbefore, hgap, hbehind⟩ := a.isBlank
  have hvalue : readValueOnto s a.bytes = readArray Key.all true s
      (a.gap ++ (separated (a.items.map Item.bytes) ++ 93 :: a.behind)) := by
    rw [readValueOnto, ArrayText.bytes, skipSpace_append hbefore, skipSpace_cons rfl]
    rfl
  rw [readOnto, hvalue, readArray_eq ha hgap hlength]
  exact (finish_map hbehind _ id).trans (by cases (Key.all.zip a.items).foldlM takeItem s <;> rfl)

/-! ## Known members -/

/-- Whether a value has the type that a key wants. -/
def Key.admits : Key → Json → Bool
  | enabled, .bool _ | syncInstrumentation, .bool _ => true
  | mining, .bool _ | blockProgress, .bool _ => true
  | genesisFile, .text _ | genesisFile, .null | outputPath, .text _ | outputPath, .null => true
  | nodeVersion, .text _ | chainVariant, .text _ => true
  | _, _ => false

theorem isSome_set? (s : Settings) (key : Key) (v : Json) :
    (s.set? key v).isSome = key.admits v := by
  cases key <;> cases v <;> rfl

/-- What a key has in the settings, where a path that is not set counts as `null`. -/
def value (s : Settings) (key : Key) : Json := (s.get? key).getD .null

theorem value_set? {s t : Settings} {key : Key} {v : Json} (h : s.set? key v = some t) (k : Key) :
    t.value k = if k = key then v else s.value k := by
  cases key <;> cases v <;> first
    | (obtain rfl := Option.some.inj h
       cases k <;> rfl)
    | cases h

theorem ext_value {s t : Settings} (h : ∀ k, s.value k = t.value k) : s = t := by
  have hpath {a b : Option String}
      (h : (a.map Json.text).getD .null = (b.map Json.text).getD .null) : a = b := by
    cases a with
    | none => cases b with
      | none => rfl
      | some _ => cases h
    | some _ => cases b with
      | none => cases h
      | some _ => rw [Json.text.inj h]
  obtain ⟨enabled, sync, mining, progress, genesisFile, outputPath, node, chain⟩ := s
  obtain ⟨enabled', sync', mining', progress', genesisFile', outputPath', node', chain'⟩ := t
  obtain rfl : enabled = enabled' := Json.bool.inj (h .enabled)
  obtain rfl : sync = sync' := Json.bool.inj (h .syncInstrumentation)
  obtain rfl : mining = mining' := Json.bool.inj (h .mining)
  obtain rfl : progress = progress' := Json.bool.inj (h .blockProgress)
  obtain rfl : genesisFile = genesisFile' := hpath (h .genesisFile)
  obtain rfl : outputPath = outputPath' := hpath (h .outputPath)
  obtain rfl : node = node' := Json.text.inj (h .nodeVersion)
  obtain rfl : chain = chain' := Json.text.inj (h .chainVariant)
  rfl

/-- The settings after values of some keys. -/
inductive Sets : Settings → List (Key × Bytes) → Settings → Prop
  | none (s : Settings) : Sets s [] s
  | next {s u t : Settings} {key : Key} {x : Bytes} {v : Json} {rest : List (Key × Bytes)}
      (hv : Denotes x v) (hset : s.set? key v = some u) (h : Sets u rest t) :
      Sets s ((key, x) :: rest) t

/-- Whether the text is a value that the key wants. -/
def Fits (p : Key × Bytes) : Prop := ∃ v, Denotes p.2 v ∧ p.1.admits v = true

section Sets

variable {s t : Settings} {pairs : List (Key × Bytes)}

theorem exists_sets : (∃ t, Sets s pairs t) ↔ ∀ p ∈ pairs, Fits p := by
  induction pairs generalizing s with
  | nil => exact ⟨fun _ _ hp => (nomatch hp), fun _ => ⟨s, .none s⟩⟩
  | cons p rest ih =>
    rw [List.forall_mem_cons]
    constructor
    · rintro ⟨t, ht⟩
      cases ht with
      | next hv hset h =>
        refine ⟨⟨_, hv, ?_⟩, ih.mp ⟨t, h⟩⟩
        rw [← isSome_set? s, hset]
        rfl
    · rintro ⟨⟨v, hv, hadmits⟩, hrest⟩
      rw [← isSome_set? s] at hadmits
      obtain ⟨u, hu⟩ := Option.isSome_iff_exists.mp hadmits
      obtain ⟨t, ht⟩ := (ih (s := u)).mpr hrest
      exact ⟨t, .next hv hu ht⟩

/-- Values of different keys end up where they belong, and what is not set stays. -/
theorem Sets.value_eq (h : Sets s pairs t) (hkeys : (pairs.map Prod.fst).Nodup) :
    (∀ p ∈ pairs, Denotes p.2 (t.value p.1)) ∧
      ∀ k, k ∉ pairs.map Prod.fst → t.value k = s.value k := by
  induction h with
  | none s => exact ⟨fun _ hp => (nomatch hp), fun _ _ => rfl⟩
  | @next s u t key x v rest hv hset _ ih =>
    obtain ⟨hfresh, hrest⟩ := List.nodup_cons.mp hkeys
    obtain ⟨hset', hkeep⟩ := ih hrest
    refine ⟨List.forall_mem_cons.mpr ⟨?_, hset'⟩, fun k hk => ?_⟩
    · rwa [hkeep key hfresh, value_set? hset, if_pos rfl]
    · obtain ⟨hne, hk⟩ := not_or.mp (mt List.mem_cons.mpr hk)
      rw [hkeep k hk, value_set? hset, if_neg hne]

end Sets

/-- The members with the name of a key, each with the text of its value. -/
def known (members : List Member) : List (Key × Bytes) :=
  members.filterMap fun m => ((Text.spelled? m.name).bind Key.ofName?).map (·, m.value.text)

section Folds

variable {members : List Member} {m : Member} {seen : List Key} {s t : Settings}

theorem foldlM_unknown {name : String} (hspelled : Text.spelled? m.name = some name)
    (hname : Key.ofName? name = none) :
    (m :: members).foldlM takeMember (seen, s) = members.foldlM takeMember (seen, s) ∧
      known (m :: members) = known members := by
  have htake : takeMember (seen, s) m = .ok (seen, s) := by
    simp only [takeMember, hspelled, hname]
  constructor
  · rw [List.foldlM_cons, htake]
    rfl
  · simp [known, hspelled, hname]

theorem foldlM_known {name : String} {key : Key} (hspelled : Text.spelled? m.name = some name)
    (hname : Key.ofName? name = some key) :
    (m :: members).foldlM takeMember (seen, s) =
      (if key ∈ seen then .error .mismatch
        else setTo s key m.value.text >>= fun u => members.foldlM takeMember (key :: seen, u)) ∧
      known (m :: members) = (key, m.value.text) :: known members := by
  have htake : takeMember (seen, s) m =
      if key ∈ seen then .error .mismatch
        else (setTo s key m.value.text).map (key :: seen, ·) := by
    simp only [takeMember, hspelled, hname]
  constructor
  · rw [List.foldlM_cons, htake]
    split
    · rfl
    · cases setTo s key m.value.text <;> rfl
  · simp [known, hspelled, hname]

/-- Keys are new behind one more key if it is not among them. -/
theorem forall_notMem_cons {α : Type} {pairs : List (Key × α)} {key : Key} :
    (∀ p ∈ pairs, p.1 ∉ key :: seen) ↔
      key ∉ pairs.map Prod.fst ∧ ∀ p ∈ pairs, p.1 ∉ seen := by
  simp only [List.mem_cons, not_or, List.mem_map, not_exists, not_and, ← forall_and]

/-- Members are folded to the end if each name can be read, no key comes twice, and each value has
the type that its key wants. -/
theorem foldlM_takeMember_eq_ok (h : ∀ m ∈ members, IsValue m.value.text) :
    (∃ all, members.foldlM takeMember (seen, s) = .ok (all, t)) ↔
      (∀ m ∈ members, (Text.spelled? m.name).isSome) ∧ ((known members).map Prod.fst).Nodup ∧
        (∀ p ∈ known members, p.1 ∉ seen) ∧ Sets s (known members) t := by
  induction members generalizing seen s with
  | nil =>
    constructor
    · rintro ⟨all, hall⟩
      obtain ⟨rfl, rfl⟩ := Prod.mk.inj (Except.ok.inj hall)
      exact ⟨fun _ hm => (nomatch hm), .nil, fun _ hp => (nomatch hp), .none s⟩
    · rintro ⟨-, -, -, hsets⟩
      cases hsets
      exact ⟨seen, rfl⟩
  | cons m members ih =>
    obtain ⟨hvalue, hmembers⟩ := List.forall_mem_cons.mp h
    rw [List.forall_mem_cons]
    cases hspelled : Text.spelled? m.name with
    | none =>
      have hfold : (m :: members).foldlM takeMember (seen, s) = .error .malformed := by
        have htake : takeMember (seen, s) m = .error .malformed := by
          simp only [takeMember, hspelled]
        rw [List.foldlM_cons, htake]
        rfl
      rw [hfold]
      exact ⟨fun ⟨_, hall⟩ => (nomatch hall), fun ⟨⟨hname, _⟩, _⟩ => (nomatch hname)⟩
    | some name =>
      cases hname : Key.ofName? name with
      | none =>
        obtain ⟨hfold, hknown⟩ := foldlM_unknown hspelled hname
        rw [hfold, hknown, ih hmembers]
        exact and_congr_left fun _ => (and_iff_right rfl).symm
      | some key =>
        obtain ⟨hfold, hknown⟩ := foldlM_known hspelled hname
        rw [hfold, hknown, List.map_cons, List.nodup_cons, List.forall_mem_cons]
        by_cases hseen : key ∈ seen
        · rw [if_pos hseen]
          exact ⟨fun ⟨_, hall⟩ => (nomatch hall), fun ⟨_, _, ⟨hnew, _⟩, _⟩ => (hnew hseen).elim⟩
        · rw [if_neg hseen]
          constructor
          · rintro ⟨all, hall⟩
            obtain ⟨u, hset, hrest⟩ := bind_eq_ok.mp hall
            obtain ⟨v, hv, hu⟩ := (setTo_eq_ok hvalue).mp hset
            obtain ⟨hnames, hkeys, hnew, hsets⟩ := (ih hmembers).mp ⟨all, hrest⟩
            obtain ⟨hfresh, hnew⟩ := forall_notMem_cons.mp hnew
            exact ⟨⟨rfl, hnames⟩, ⟨hfresh, hkeys⟩, ⟨hseen, hnew⟩, .next hv hu hsets⟩
          · rintro ⟨⟨-, hnames⟩, ⟨hfresh, hkeys⟩, ⟨-, hnew⟩, hsets⟩
            cases hsets with
            | @next _ u _ _ _ v _ hv hu hsets =>
              obtain ⟨all, hall⟩ := (ih hmembers).mpr
                ⟨hnames, hkeys, forall_notMem_cons.mpr ⟨hfresh, hnew⟩, hsets⟩
              exact ⟨all, bind_eq_ok.mpr ⟨u, (setTo_eq_ok hvalue).mpr ⟨v, hv, hu⟩, hall⟩⟩

end Folds

theorem ofText_eq_ok {b : Bytes} {s : Settings} : ofText b = .ok s ↔ read b = .ok s := by
  unfold ofText
  cases read b <;> simp

/-- When an object is decoded, and to what. -/
theorem readOnto_object_eq_ok {o : ObjectText} (ho : o.IsWellFormed) {s t : Settings} :
    readOnto s o.bytes = .ok t ↔
      o.IsSpelled ∧ ((known o.members).map Prod.fst).Nodup ∧ Sets s (known o.members) t := by
  have hfold : (o.members.foldlM takeMember ([], s)).map Prod.snd = .ok t ↔
      ∃ all, o.members.foldlM takeMember ([], s) = .ok (all, t) := by
    cases o.members.foldlM takeMember ([], s) with
    | error e => exact ⟨fun h => (nomatch h), fun ⟨_, h⟩ => (nomatch h)⟩
    | ok p => exact ⟨fun h => ⟨p.1, congrArg _ (Prod.ext rfl (Except.ok.inj h))⟩,
        fun ⟨_, h⟩ => congrArg (Except.map Prod.snd) h⟩
  rw [readOnto_object ho, hfold, foldlM_takeMember_eq_ok ho]
  have hseen : ∀ p ∈ known o.members, p.1 ∉ ([] : List Key) := fun _ _ h => (nomatch h)
  exact and_congr_right fun _ => and_congr_right fun _ => and_iff_right hseen

theorem ofText_object {o : ObjectText} (ho : o.IsWellFormed) {t : Settings} :
    ofText o.bytes = .ok t ↔
      o.IsSpelled ∧ ((known o.members).map Prod.fst).Nodup ∧ Sets default (known o.members) t := by
  rw [ofText_eq_ok, ← readOnto_default, readOnto_object_eq_ok ho]

/-- The same values of the same keys give the same settings, in whatever order. -/
theorem Sets.perm {pairs others : List (Key × Bytes)} {s t u : Settings} (ht : Sets s pairs t)
    (hu : Sets s others u) (hkeys : (pairs.map Prod.fst).Nodup) (hperm : pairs.Perm others) :
    t = u := by
  have hothers : (others.map Prod.fst).Nodup := (hperm.map Prod.fst).nodup_iff.mp hkeys
  obtain ⟨hset, hkeep⟩ := ht.value_eq hkeys
  obtain ⟨hset', hkeep'⟩ := hu.value_eq hothers
  refine ext_value fun k => ?_
  by_cases hk : k ∈ pairs.map Prod.fst
  · obtain ⟨p, hp, rfl⟩ := List.mem_map.mp hk
    exact (hset p hp).unique (hset' p (hperm.mem_iff.mp hp))
  · have hk' : k ∉ others.map Prod.fst := mt (hperm.map Prod.fst).mem_iff.mpr hk
    rw [hkeep k hk, hkeep' k hk']

theorem exists_ofText_object {o : ObjectText} (ho : o.IsWellFormed) :
    (∃ s, ofText o.bytes = .ok s) ↔
      o.IsSpelled ∧ ((known o.members).map Prod.fst).Nodup ∧ ∀ p ∈ known o.members, Fits p := by
  simp only [ofText_object ho, exists_and_left, exists_sets]

/-- Neither the order of the members nor what is unknown matters. -/
theorem ofText_object_perm {o other : ObjectText} (ho : o.IsWellFormed)
    (hother : other.IsWellFormed) (hnames : o.IsSpelled) (hnames' : other.IsSpelled)
    (hperm : (known o.members).Perm (known other.members)) :
    (ofText o.bytes).toOption = (ofText other.bytes).toOption := by
  have hdecoded : (∃ s, ofText o.bytes = .ok s) ↔ ∃ t, ofText other.bytes = .ok t := by
    rw [exists_ofText_object ho, exists_ofText_object hother]
    simp only [hnames, hnames', (hperm.map Prod.fst).nodup_iff, hperm.mem_iff]
  cases hread : ofText o.bytes with
  | ok s =>
    obtain ⟨t, ht⟩ := hdecoded.mp ⟨s, hread⟩
    obtain ⟨-, hkeys, hsets⟩ := (ofText_object ho).mp hread
    obtain ⟨-, -, hsets'⟩ := (ofText_object hother).mp ht
    rw [ht, hsets.perm hsets' hkeys hperm]
  | error e =>
    cases hread' : ofText other.bytes with
    | error e' => rfl
    | ok t =>
      obtain ⟨s, hs⟩ := hdecoded.mpr ⟨t, hread'⟩
      cases hread.symm.trans hs

theorem map_fst_zip_sublist {α β : Type} (l : List α) (m : List β) :
    ((l.zip m).map Prod.fst).Sublist l := by
  induction l generalizing m with
  | nil => exact .slnil
  | cons a l ih =>
    cases m with
    | nil => exact List.nil_sublist _
    | cons b m => exact (ih m).cons_cons a

/-- Members with the names of different keys do what the items do that have these keys. -/
theorem foldlM_takeItem {members : List Member} {pairs : List (Key × Item)} {seen : List Key}
    (h : members.map (fun m => (Text.spelled? m.name, m.value.text)) =
      pairs.map fun p => (some p.1.name, p.2.text))
    (hkeys : (pairs.map Prod.fst).Nodup) (hseen : ∀ p ∈ pairs, p.1 ∉ seen) (s : Settings) :
    (members.foldlM takeMember (seen, s)).map Prod.snd = pairs.foldlM takeItem s := by
  induction pairs generalizing members seen s with
  | nil =>
    obtain rfl := List.map_eq_nil_iff.mp h
    rfl
  | cons p pairs ih =>
    cases members with
    | nil => cases h
    | cons m members =>
      obtain ⟨hhead, hrest⟩ := List.cons.inj h
      obtain ⟨hname, htext⟩ := Prod.mk.inj hhead
      obtain ⟨hfresh, hkeys⟩ := List.nodup_cons.mp hkeys
      obtain ⟨hp, hseen⟩ := List.forall_mem_cons.mp hseen
      rw [(foldlM_known hname (Key.ofName?_name p.1)).1, if_neg hp, List.foldlM_cons, map_bind_eq,
        htext]
      have hnew : ∀ q ∈ pairs, q.1 ∉ p.1 :: seen := forall_notMem_cons.mpr ⟨hfresh, hseen⟩
      exact congrArg _ (funext fun u => ih hrest hkeys hnew u)

/-- Only members with the name of a key count for what an object is decoded to, whatever the order
of all members and the blanks between them: their values are put in place of the defaults. It is
decoded unless some name cannot be read, a key comes twice or has a value of the wrong type. An
array is decoded like the object with the same values for the first keys. -/
theorem known_members_decide {o : ObjectText} (ho : o.IsWellFormed) :
    (o.IsSpelled → ((known o.members).map Prod.fst).Nodup → (∀ p ∈ known o.members, Fits p) →
      ∃ s, ofText o.bytes = .ok s ∧
        (∀ p ∈ known o.members, Denotes p.2 (s.value p.1)) ∧
        ∀ k, k ∉ (known o.members).map Prod.fst → s.value k = default.value k) ∧
    (∀ other : ObjectText, other.IsWellFormed → o.IsSpelled → other.IsSpelled →
      (known o.members).Perm (known other.members) →
        (ofText o.bytes).toOption = (ofText other.bytes).toOption) ∧
    (¬o.IsSpelled ∨ ¬((known o.members).map Prod.fst).Nodup ∨
        (∃ p ∈ known o.members, ¬Fits p) → ∃ e, ofText o.bytes = .error e) ∧
    ∀ a : ArrayText, a.IsWellFormed → a.items.length ≤ Key.all.length →
      o.members.map (fun m => (Text.spelled? m.name, m.value.text)) =
        (Key.all.zip a.items).map (fun p => (some p.1.name, p.2.text)) →
      ofText a.bytes = ofText o.bytes := by
  refine ⟨fun hnames hkeys hfits => ?_,
    fun other hother hnames hnames' => ofText_object_perm ho hother hnames hnames',
    fun hwrong => ?_, fun a ha hlength hsame => ?_⟩
  · obtain ⟨s, hs⟩ := (exists_ofText_object ho).mpr ⟨hnames, hkeys, hfits⟩
    obtain ⟨-, -, hsets⟩ := (ofText_object ho).mp hs
    exact ⟨s, hs, hsets.value_eq hkeys⟩
  · cases hread : ofText o.bytes with
    | error e => exact ⟨e, rfl⟩
    | ok s =>
      obtain ⟨hnames, hkeys, hfits⟩ := (exists_ofText_object ho).mp ⟨s, hread⟩
      obtain hname | hkey | ⟨p, hp, hfit⟩ := hwrong
      · exact (hname hnames).elim
      · exact (hkey hkeys).elim
      · exact (hfit (hfits p hp)).elim
  · have hkeys : ((Key.all.zip a.items).map Prod.fst).Nodup :=
      (map_fst_zip_sublist Key.all a.items).nodup (by decide)
    have hread : read a.bytes = read o.bytes := by
      rw [← readOnto_default, readOnto_array ha hlength, ← readOnto_default, readOnto_object ho]
      exact (foldlM_takeItem hsame hkeys (fun _ _ => List.not_mem_nil) default).symm
    rw [ofText, ofText, hread]

/-- A name in its own letters. -/
def plain (name : String) : List Text.Piece :=
  (Bytes.ofText name).filterMap fun b =>
    if h : 32 ≤ b ∧ b ≠ 34 ∧ b ≠ 92 then some (.byte b h) else none

/-- Half a character. -/
def half : Text.Piece := .unit 100 102 102 102 0xDFFF rfl

/-- A value without blanks around it. -/
def bare (text : Bytes) : Item := ⟨[], text, [], isBlank_nil, isBlank_nil⟩

/-- A member without blanks. -/
def member (name : List Text.Piece) (value : Bytes) : Member :=
  ⟨[], name, [], bare value, isBlank_nil, isBlank_nil⟩

/-- An object without blanks. -/
def object (members : List Member) : ObjectText :=
  ⟨[], [], members, [], isBlank_nil, isBlank_nil, isBlank_nil⟩

theorem isValue_one : IsValue [49] := by
  have hone : IsNumeral ([49] ++ ([] ++ [])) :=
    .parts ⟨by decide, List.forall_mem_singleton.mpr rfl⟩ (fun h => absurd h (by decide)) .absent
      .absent
  exact .scalar (.number hone)

theorem half_named_member_fails :
    let o := object [member [half] [49]]
    o.bytes = Bytes.ofText "\x7b\"\\udfff\":1\x7d" ∧ o.IsWellFormed ∧ known o.members = [] ∧
      ofText o.bytes = .error (.undecodable .malformed) ∧
      ofText (Bytes.ofText "\x7b\x7d") = .ok default := by
  refine ⟨rfl, ?_, rfl, rfl, rfl⟩
  exact List.forall_mem_singleton.mpr isValue_one

/-- A known member with blanks, and an unknown one twice, the second time with half a character in
an array. -/
def scattered : ObjectText :=
  let text := 34 :: ([half].flatMap Text.Piece.bytes ++ [34])
  ⟨[10], [],
    [member (plain "x") [49],
      ⟨[32], plain "mining_enabled", [32],
        ⟨[], Bytes.ofText "true", [9], isBlank_nil, by decide⟩, by decide, by decide⟩,
      member (plain "x") (91 :: ([] ++ (separated ([bare text].map Item.bytes) ++ [93])))],
    [], by decide, isBlank_nil, isBlank_nil⟩

theorem isWellFormed_scattered : scattered.IsWellFormed := by
  have hhalf : IsValue (91 :: ([] ++ (separated ([bare _].map Item.bytes) ++ [93]))) :=
    .array isBlank_nil (List.forall_mem_singleton.mpr (.scalar (.text [half])))
  intro m hm
  simp only [scattered, List.mem_cons, List.not_mem_nil, or_false] at hm
  rcases hm with rfl | rfl | rfl
  · exact isValue_one
  · exact .scalar (.bool true)
  · exact hhalf

theorem isWellFormed_object_true (name : List Text.Piece) :
    (object [member name (Bytes.ofText "true")]).IsWellFormed :=
  List.forall_mem_singleton.mpr (.scalar (.bool true))

theorem known_members_decide_scattered :
    scattered.bytes =
      Bytes.ofText "\n\x7b\"x\":1, \"mining_enabled\" :true\t,\"x\":[\"\\udfff\"]\x7d" ∧
    scattered.IsWellFormed ∧ ofText scattered.bytes = .ok { default with mining := true } ∧
    (ofText scattered.bytes).toOption =
      (ofText (Bytes.ofText "\x7b\"mining_enabled\":true\x7d")).toOption ∧
    ofText (Bytes.ofText "[true]") = ofText (Bytes.ofText "\x7b\"enabled\":true\x7d") := by
  have hknown : known scattered.members = [(.mining, Bytes.ofText "true")] := rfl
  obtain ⟨hdecoded, hsame, -, -⟩ := known_members_decide isWellFormed_scattered
  obtain ⟨-, -, -, harray⟩ := known_members_decide (isWellFormed_object_true (plain "enabled"))
  refine ⟨rfl, isWellFormed_scattered, ?_, ?_, ?_⟩
  · rw [hknown] at hdecoded
    obtain ⟨s, hs, hset, hkeep⟩ := hdecoded (by decide) (by decide)
      (List.forall_mem_singleton.mpr ⟨.bool true, .bool true, rfl⟩)
    have hmining := (hset _ List.mem_cons_self).unique (.bool true)
    have heq : s = { default with mining := true } := by
      refine ext_value fun k => ?_
      by_cases hk : k = .mining
      · subst hk
        exact hmining
      · rw [hkeep k (by simpa using hk)]
        cases k <;> first | rfl | exact (hk rfl).elim
    exact hs.trans (congrArg _ heq)
  · exact hsame _ (isWellFormed_object_true (plain "mining_enabled")) (by decide) (by decide)
      (.refl _)
  · exact harray ⟨[], [], [bare (Bytes.ofText "true")], [], isBlank_nil, isBlank_nil, isBlank_nil⟩
      (List.forall_mem_singleton.mpr (.scalar (.bool true))) (by decide) rfl

end Settings
end EvmTrace
