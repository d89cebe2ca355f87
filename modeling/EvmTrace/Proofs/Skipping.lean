import EvmTrace.Proofs.Grammar

/-!
# Values that are passed over

The grammar of whole values, with any blanks between their parts. Passing over meets one need after
another; it comes to the end of any value, however deep it is, in fewer steps than it is given.
-/
namespace EvmTrace.Json

def IsBlank (b : Bytes) : Prop := ∀ c ∈ b, isSpace c = true

instance (b : Bytes) : Decidable (IsBlank b) :=
  List.decidableBAll (fun c => isSpace c = true) b

/-- A value with the blanks around it. -/
structure Item where
  before : Bytes
  text : Bytes
  behind : Bytes
  isBlank : IsBlank before ∧ IsBlank behind

def Item.bytes (i : Item) : Bytes := i.before ++ (i.text ++ i.behind)

/-- A member of an object with the blanks between its parts. -/
structure Member where
  before : Bytes
  name : List Text.Piece
  gap : Bytes
  value : Item
  isBlank : IsBlank before ∧ IsBlank gap

namespace Member

/-- What stands behind the quote that opens the name. -/
def body (m : Member) : Bytes :=
  m.name.flatMap Text.Piece.bytes ++ 34 :: (m.gap ++ 58 :: m.value.bytes)

def bytes (m : Member) : Bytes := m.before ++ 34 :: m.body

end Member

/-- The given parts with commas between them. -/
def separated : List Bytes → Bytes
  | [] => []
  | b :: rest => b ++ rest.flatMap (44 :: ·)

/-- There is no more than one part more than there are commas. -/
theorem length_le_separated (parts : List Bytes) :
    parts.length ≤ (separated parts).length + 1 := by
  cases parts with
  | nil => exact Nat.zero_le _
  | cons b rest =>
    have hrest : rest.length ≤ (rest.flatMap (44 :: ·)).length := by
      induction rest with
      | nil => exact Nat.le_refl _
      | cons b rest ih =>
        rw [List.flatMap_cons, List.length_append, List.length_cons, List.length_cons]
        omega
    rw [separated, List.length_append, List.length_cons]
    omega

inductive IsValue : Bytes → Prop
  | scalar {x : Bytes} (h : IsScalar x) : IsValue x
  | array {gap : Bytes} {items : List Item} (hgap : IsBlank gap)
      (h : ∀ i ∈ items, IsValue i.text) :
      IsValue (91 :: (gap ++ (separated (items.map Item.bytes) ++ [93])))
  | object {gap : Bytes} {members : List Member} (hgap : IsBlank gap)
      (h : ∀ m ∈ members, IsValue m.value.text) :
      IsValue (123 :: (gap ++ (separated (members.map Member.bytes) ++ [125])))

/-! ## Blanks -/

section Blanks

variable {gap b rest : Bytes}

theorem isDelimiter_of_isSpace {c : UInt8} (h : isSpace c = true) : isDelimiter c = true := by
  simp [isDelimiter, h]

theorem isBlank_nil : IsBlank [] := fun _ h => (nomatch h)

theorem skipSpace_append (h : IsBlank gap) (b : Bytes) : skipSpace (gap ++ b) = skipSpace b :=
  List.dropWhile_append_of_pos h

theorem Stops.append (h : IsBlank gap) (hb : Stops b) : Stops (gap ++ b) := by
  cases gap with
  | nil => exact hb
  | cons c gap => exact stops_cons (isDelimiter_of_isSpace (h c List.mem_cons_self)) _

theorem readColon_blank (h : IsBlank gap) (rest : Bytes) :
    readColon (gap ++ 58 :: rest) = .ok rest := by
  rw [readColon, skipSpace_append h]
  exact readColon_cons rest

end Blanks

/-! ## Needs -/

/-- The text meets some needs in at most so many steps, and others are left then. -/
def Meets (n : Nat) (needs : List Need) (b : Bytes) (left : List Need) : Prop :=
  ∃ m ≤ n, ∀ steps later rest, Stops rest →
    skipNeeds (m + steps) (needs ++ later) (b ++ rest) = skipNeeds steps (left ++ later) rest

namespace Meets

variable {n m : Nat} {needs left : List Need} {need : Need} {b gap : Bytes} {c : UInt8}

theorem none (needs : List Need) : Meets 0 needs [] needs :=
  ⟨0, Nat.le_refl 0, fun steps _ _ _ => by rw [Nat.zero_add]; rfl⟩

theorem mono (h : Meets n needs b left) (hle : n ≤ m) : Meets m needs b left :=
  h.imp fun _ hk => ⟨Nat.le_trans hk.1 hle, hk.2⟩

/-- What is needed later does not matter. -/
theorem frame (h : Meets n needs b left) (later : List Need) :
    Meets n (needs ++ later) b (left ++ later) := by
  obtain ⟨k, hk, hmeets⟩ := h
  refine ⟨k, hk, fun steps more rest hrest => ?_⟩
  rw [List.append_assoc, List.append_assoc]
  exact hmeets steps (later ++ more) rest hrest

theorem trans {b' : Bytes} {left' : List Need} (h : Meets n needs b left)
    (hnext : Meets m left b' left') (hstops : ∀ rest, Stops rest → Stops (b' ++ rest)) :
    Meets (n + m) needs (b ++ b') left' := by
  obtain ⟨k, hk, hmeets⟩ := h
  obtain ⟨l, hl, hmore⟩ := hnext
  refine ⟨k + l, Nat.add_le_add hk hl, fun steps later rest hrest => ?_⟩
  rw [List.append_assoc, Nat.add_assoc, hmeets _ _ _ (hstops rest hrest), hmore _ _ _ hrest]

/-- One need is met by what the next byte opens. -/
theorem step (more : List Need) (b' : Bytes) (hspace : isSpace c = false)
    (hmeet : ∀ rest, Stops rest → need.meet c (b ++ rest) = .ok (more, b' ++ rest))
    (h : Meets n (more ++ needs) b' left) : Meets (n + 1) (need :: needs) (c :: b) left := by
  obtain ⟨k, hk, hmeets⟩ := h
  refine ⟨k + 1, Nat.add_le_add_right hk 1, fun steps later rest hrest => ?_⟩
  rw [Nat.add_right_comm, List.cons_append, List.cons_append, skipNeeds, skipSpace_cons hspace]
  simp only [hmeet rest hrest]
  rw [← List.append_assoc]
  exact hmeets steps later rest hrest

theorem blank_before (hgap : IsBlank gap) (h : Meets n (need :: needs) b left) :
    Meets n (need :: needs) (gap ++ b) left := by
  obtain ⟨k, hk, hmeets⟩ := h
  refine ⟨k, hk, fun steps later rest hrest => ?_⟩
  have hblank : skipNeeds (k + steps) (need :: needs ++ later) (gap ++ (b ++ rest)) =
      skipNeeds (k + steps) (need :: needs ++ later) (b ++ rest) := by
    cases k + steps with
    | zero => rfl
    | succ steps => simp only [List.cons_append, skipNeeds, skipSpace_append hgap]
  rw [List.append_assoc, hblank, hmeets steps later rest hrest]

theorem blank_behind (hgap : IsBlank gap) (h : Meets n needs b (need :: left)) :
    Meets n needs (b ++ gap) (need :: left) := by
  have hleft : Meets 0 (need :: left) gap (need :: left) := by
    have hnone := blank_before hgap (none (need :: left))
    rwa [List.append_nil] at hnone
  exact h.trans hleft fun rest hrest => hrest.append hgap

end Meets

/-! ## Brackets -/

theorem Bracket.isDelimiter_close (bracket : Bracket) : isDelimiter bracket.close = true := by
  cases bracket <;> rfl

theorem Bracket.isSpace_close (bracket : Bracket) : isSpace bracket.close = false := by
  cases bracket <;> rfl

/-- Starts a value, behind blanks. -/
structure Opens (c : UInt8) : Prop where
  space : isSpace c = false
  close : ∀ bracket : Bracket, c ≠ bracket.close

/-- What may stand between two commas, in fewer steps than it takes up twice. -/
def IsEntry (bracket : Bracket) (b : Bytes) : Prop :=
  ∃ gap c core, b = gap ++ c :: core ∧ IsBlank gap ∧ Opens c ∧
    Meets (2 * (core.length + 1)) [.item bracket] (c :: core) [.commaOrClose bracket]

section Entries

variable {bracket : Bracket} {entries : List Bytes} {b : Bytes}

theorem IsEntry.meets (h : IsEntry bracket b) :
    Meets (2 * b.length) [.item bracket] b [.commaOrClose bracket] := by
  obtain ⟨gap, c, core, rfl, hgap, -, hmeets⟩ := h
  refine (hmeets.blank_before hgap).mono ?_
  rw [List.length_append, List.length_cons]
  omega

theorem meets_close (bracket : Bracket) : Meets 1 [.commaOrClose bracket] [bracket.close] [] :=
  .step [] [] bracket.isSpace_close (fun rest _ => by simp [Need.meet]) (.none [])

theorem stops_more (bracket : Bracket) (entries : List Bytes) (rest : Bytes) :
    Stops (entries.flatMap (44 :: ·) ++ bracket.close :: rest) := by
  cases entries with
  | nil => exact stops_cons bracket.isDelimiter_close rest
  | cons b entries => exact stops_cons rfl _

theorem meets_more (h : ∀ b ∈ entries, IsEntry bracket b) :
    Meets (2 * (entries.flatMap (44 :: ·)).length + 1) [.commaOrClose bracket]
      (entries.flatMap (44 :: ·) ++ [bracket.close]) [] := by
  induction entries with
  | nil => exact meets_close bracket
  | cons b entries ih =>
    have hentry := (h b List.mem_cons_self).meets
    have hmore := ih fun b hb => h b (List.mem_cons_of_mem _ hb)
    have hboth := hentry.trans hmore fun rest _ => by
      rw [List.append_assoc]
      exact stops_more bracket entries rest
    have hcomma : (44 : UInt8) ≠ bracket.close := by cases bracket <;> decide
    have hmeet (rest : Bytes) : Need.meet (.commaOrClose bracket) 44 rest =
        .ok ([.item bracket], rest) := by simp [Need.meet, hcomma]
    have hall := Meets.step [.item bracket] _ rfl (fun rest _ => hmeet _) hboth
    rw [List.flatMap_cons, List.append_assoc]
    refine hall.mono ?_
    rw [List.length_append, List.length_cons]
    omega

/-- Any number of entries is met up to the closing bracket. -/
theorem meets_entries (bracket : Bracket) (h : ∀ b ∈ entries, IsEntry bracket b) :
    Meets (2 * (separated entries).length + 2) [.itemOrClose bracket]
      (separated entries ++ [bracket.close]) [] := by
  cases entries with
  | nil =>
    have hmeet (rest : Bytes) : Need.meet (.itemOrClose bracket) bracket.close rest =
        .ok ([], rest) := by simp [Need.meet]
    exact (Meets.step [] [] bracket.isSpace_close (fun rest _ => hmeet _) (.none [])).mono
      (Nat.le_add_left 1 _)
  | cons b entries =>
    obtain ⟨gap, c, core, rfl, hgap, hopens, hentry⟩ := h b List.mem_cons_self
    have hmore := meets_more fun b hb => h b (List.mem_cons_of_mem _ hb)
    have hboth := hentry.trans hmore fun rest _ => by
      rw [List.append_assoc]
      exact stops_more bracket entries rest
    have hmeet (rest : Bytes) : Need.meet (.itemOrClose bracket) c rest =
        .ok ([.item bracket], c :: rest) := by simp [Need.meet, hopens.close]
    have hall := (Meets.step [.item bracket] _ hopens.space (fun rest _ => hmeet _)
      hboth).blank_before hgap
    have hbytes : separated ((gap ++ c :: core) :: entries) ++ [bracket.close] =
        gap ++ c :: core.append (entries.flatMap (44 :: ·) ++ [bracket.close]) := by
      simp [separated]
    rw [hbytes]
    refine hall.mono ?_
    simp only [separated, List.length_append, List.length_cons]
    omega

end Entries

/-! ## Values -/

variable {x : Bytes}

/-- The value is passed over, and starts like one. -/
def PassesOver (x : Bytes) : Prop :=
  ∃ c text, x = c :: text ∧ Opens c ∧ Meets (2 * x.length - 1) [.value] x []

theorem isEntry_item {i : Item} (h : PassesOver i.text) : IsEntry .array i.bytes := by
  obtain ⟨c, text, htext, hopens, hvalue⟩ := h
  have hframed := (hvalue.frame [.commaOrClose .array]).blank_behind i.isBlank.2
  rw [htext] at hframed
  refine ⟨i.before, c, text ++ i.behind, ?_, i.isBlank.1, hopens, ?_⟩
  · rw [Item.bytes, htext, List.cons_append]
  · refine (Meets.step [.value, .commaOrClose .array] _ hopens.space (fun _ _ => rfl)
      hframed).mono ?_
    simp only [List.length_cons, List.length_append]
    omega

theorem isEntry_member {m : Member} (h : PassesOver m.value.text) : IsEntry .object m.bytes := by
  obtain ⟨c, text, htext, hopens, hvalue⟩ := h
  have hframed := ((hvalue.frame [.commaOrClose .object]).blank_behind
    m.value.isBlank.2).blank_before m.value.isBlank.1
  have hmeet (rest : Bytes) : Need.meet (.item .object) 34 (m.body ++ rest) =
      .ok ([.value, .commaOrClose .object], m.value.bytes ++ rest) := by
    have hbody : m.body ++ rest = m.name.flatMap Text.Piece.bytes ++
        34 :: (m.gap ++ 58 :: (m.value.bytes ++ rest)) := by simp [Member.body]
    rw [hbody]
    simp only [Need.meet, ne_eq, not_true, if_false, Text.skip_pieces]
    rw [ok_bind, readColon_blank m.isBlank.2]
    rfl
  refine ⟨m.before, 34, m.body, rfl, m.isBlank.1, ⟨rfl, forall_bracket (by decide) (by decide)⟩, ?_⟩
  refine (Meets.step [.value, .commaOrClose .object] _ rfl (fun rest _ => hmeet rest)
    hframed).mono ?_
  simp only [Member.body, Item.bytes, List.length_cons, List.length_append]
  omega

/-- Every value is passed over, with arrays and objects by their entries. -/
theorem passesOver (h : IsValue x) : PassesOver x := by
  -- a value takes less than two steps a byte, so a comma or bracket behind it has steps left
  induction h with
  | @scalar x hx =>
    obtain ⟨c, text, r, rfl, hreads, -⟩ := readsScalar hx
    refine ⟨c, text, rfl, ⟨hreads.space, hreads.close⟩, ?_⟩
    have hmeet (rest : Bytes) (hrest : Stops rest) : Need.meet .value c (text ++ rest) =
        .ok ([], [] ++ rest) := by
      simp only [Need.meet, hreads.opens, hreads.skip rest hrest]
      rfl
    refine (Meets.step [] [] hreads.space hmeet (.none [])).mono ?_
    rw [List.length_cons]
    omega
  | @array gap items hgap _ ih =>
    refine ⟨91, _, rfl, ⟨rfl, forall_bracket (by decide) (by decide)⟩, ?_⟩
    have hentries : ∀ b ∈ items.map Item.bytes, IsEntry .array b :=
      List.forall_mem_map.mpr fun i hi => isEntry_item (ih i hi)
    refine (Meets.step [.itemOrClose .array] _ rfl (fun _ _ => rfl)
      ((meets_entries .array hentries).blank_before hgap)).mono ?_
    simp only [List.length_cons, List.length_append, List.length_nil]
    omega
  | @object gap members hgap _ ih =>
    refine ⟨123, _, rfl, ⟨rfl, forall_bracket (by decide) (by decide)⟩, ?_⟩
    have hentries : ∀ b ∈ members.map Member.bytes, IsEntry .object b :=
      List.forall_mem_map.mpr fun m hm => isEntry_member (ih m hm)
    refine (Meets.step [.itemOrClose .object] _ rfl (fun _ _ => rfl)
      ((meets_entries .object hentries).blank_before hgap)).mono ?_
    simp only [List.length_cons, List.length_append, List.length_nil]
    omega

/-- The limit on steps is not met by any value. -/
theorem skipValue_append (h : IsValue x) {gap rest : Bytes} (hgap : IsBlank gap)
    (hrest : Stops rest) : skipValue (gap ++ (x ++ rest)) = .ok rest := by
  obtain ⟨c, text, -, -, hvalue⟩ := passesOver h
  obtain ⟨n, hn, hmeets⟩ := hvalue.blank_before hgap
  have hsteps : n ≤ stepLimit (gap ++ (x ++ rest)) := by
    simp only [stepLimit, List.length_append]
    omega
  obtain ⟨steps, hsteps⟩ := Nat.exists_eq_add_of_le hsteps
  have hdone := hmeets steps [] rest hrest
  rw [List.append_assoc] at hdone
  rw [skipValue, hsteps]
  exact hdone.trans (by cases steps <;> rfl)

end EvmTrace.Json
