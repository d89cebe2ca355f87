import EvmTrace.Files
import EvmTrace.Proofs.Results

/-!
# Adding to files

A path that can be written to leads to the same place after any writing, with what was written as
its content, and no other file is touched.
-/
namespace EvmTrace

theorem lookup_filter_of_ne {α β : Type} [DecidableEq α] [BEq α] [LawfulBEq α] {at_ other : α}
    (h : other ≠ at_) (entries : List (α × β)) :
    (entries.filter (·.1 ≠ at_)).lookup other = entries.lookup other := by
  induction entries with
  | nil => rfl
  | cons entry rest ih =>
    by_cases hentry : entry.1 = at_
    · have hother : (other == entry.1) = false := by simpa [hentry] using h
      rw [List.filter_cons_of_neg (by simp [hentry]), ih, List.lookup_cons, hother]
    · rw [List.filter_cons_of_pos (by simp [hentry]), List.lookup_cons, List.lookup_cons, ih]

namespace Files

variable {files : Files} {here there : Location} {name : String}

/-- Whether a name in a directory may be that of a file. -/
def NamesFile (here : Location) (name : String) : Prop :=
  ¬(name = "." ∨ name = "..") ∧ ¬nameLimit < name.utf8ByteSize ∧
    ¬(here.child name).isDirectory = true

/-- The content of the file of a name, whether there is one yet or not. -/
def place (files : Files) (there : Location) : Place :=
  match files.content? there with
  | some content => .file there content
  | none => .vacant there

theorem look_of_namesFile (h : NamesFile here name) :
    files.look here name = .ok (files.place (here.child name)) := by
  obtain ⟨hdots, hlong, hdirectory⟩ := h
  simp only [look, if_neg hdots, if_neg hlong, if_neg hdirectory, place]
  cases files.content? (here.child name) <;> rfl

/-- Any other name leads to a directory or nowhere, whatever the files hold. -/
theorem look_of_not_namesFile (h : ¬NamesFile here name) (others : Files) :
    others.look here name = files.look here name ∧
      ∀ found, files.look here name = .ok found → found = .directory := by
  unfold look
  by_cases hdots : name = "." ∨ name = ".."
  · simp [hdots]
  · by_cases hlong : nameLimit < name.utf8ByteSize
    · simp [hdots, hlong]
    · have hdirectory : (here.child name).isDirectory = true := by
        by_contra hfile
        exact h ⟨hdots, hlong, hfile⟩
      simp [hdots, hlong, hdirectory]

theorem enter_of_enter (others : Files) (h : files.enter here name = .ok there) :
    others.enter here name = .ok there := by
  obtain ⟨found, hfound, hthere⟩ := bind_eq_ok.mp h
  by_cases hfile : NamesFile here name
  · rw [look_of_namesFile hfile] at hfound
    obtain rfl := Except.ok.inj hfound
    cases hcontent : files.content? (here.child name) with
    | none =>
      simp only [place, hcontent] at hthere
      cases hthere
    | some content =>
      simp only [place, hcontent] at hthere
      cases hthere
  · rw [← (look_of_not_namesFile hfile others).1] at hfound
    exact bind_eq_ok.mpr ⟨found, hfound, hthere⟩

/-- The way through directories is the same whatever the files hold. -/
theorem follow_of_follow (others : Files) {p : Path} (h : files.follow p = .ok there) :
    others.follow p = .ok there := by
  unfold follow at h ⊢
  generalize p.start = origin at h ⊢
  generalize p.way = way at h ⊢
  induction way generalizing origin with
  | nil => exact h
  | cons name rest ih =>
    rw [List.foldlM_cons] at h ⊢
    obtain ⟨next, hnext, hrest⟩ := bind_eq_ok.mp h
    exact bind_eq_ok.mpr ⟨next, enter_of_enter others hnext, ih next hrest⟩

/-- What can be written to, and what is there before. -/
theorem openToWrite_eq_ok {path : String} {before : Bytes} :
    files.openToWrite path = .ok (there, before) ↔ ∃ p here name, Path.ofText path = .ok p ∧
      files.follow p = .ok here ∧ p.last = some name ∧ p.endsInSlash = false ∧
      NamesFile here name ∧ there = here.child name ∧
      before = (files.content? there).getD [] := by
  constructor
  · intro h
    obtain ⟨p, hpath, h⟩ := bind_eq_ok.mp h
    obtain ⟨here, hfollow, h⟩ := bind_eq_ok.mp h
    refine ⟨p, here, ?_⟩
    cases hlast : p.last with
    | none =>
      rw [hlast] at h
      cases h
    | some name =>
      simp only [hlast] at h
      cases hslash : p.endsInSlash with
      | true =>
        rw [hslash] at h
        cases h
      | false =>
        simp only [hslash, Bool.false_eq_true, if_false] at h
        obtain ⟨found, hfound, h⟩ := bind_eq_ok.mp h
        by_cases hfile : NamesFile here name
        · rw [look_of_namesFile hfile] at hfound
          obtain rfl := Except.ok.inj hfound
          refine ⟨name, hpath, hfollow, rfl, rfl, hfile, ?_⟩
          cases hcontent : files.content? (here.child name) with
          | none =>
            simp only [place, hcontent] at h
            obtain ⟨rfl, rfl⟩ := Prod.mk.inj (pure_eq_ok.mp h)
            simp [hcontent]
          | some content =>
            simp only [place, hcontent] at h
            obtain ⟨rfl, rfl⟩ := Prod.mk.inj (pure_eq_ok.mp h)
            simp [hcontent]
        · obtain rfl := (look_of_not_namesFile hfile files).2 found hfound
          cases h
  · rintro ⟨p, here, name, hpath, hfollow, hlast, hslash, hfile, rfl, rfl⟩
    refine bind_eq_ok.mpr ⟨p, hpath, bind_eq_ok.mpr ⟨here, hfollow, ?_⟩⟩
    simp only [hlast, hslash, Bool.false_eq_true, if_false]
    refine bind_eq_ok.mpr ⟨_, look_of_namesFile hfile, ?_⟩
    unfold place
    cases files.content? (here.child name) <;> rfl

theorem openToWrite_put {path : String} {before : Bytes}
    (h : files.openToWrite path = .ok (there, before)) (content : Bytes) :
    (files.put there content).openToWrite path = .ok (there, content) := by
  obtain ⟨p, here, name, hpath, hfollow, hlast, hslash, hfile, rfl, -⟩ := openToWrite_eq_ok.mp h
  refine openToWrite_eq_ok.mpr
    ⟨p, here, name, hpath, follow_of_follow _ hfollow, hlast, hslash, hfile, rfl, ?_⟩
  rw [content?_put]
  rfl

theorem append_of_openToWrite {path : String} {before : Bytes}
    (h : files.openToWrite path = .ok (there, before)) (b : Bytes) :
    files.append path b = .ok (files.put there (before ++ b)) :=
  bind_eq_ok.mpr ⟨(there, before), h, rfl⟩

end Files
end EvmTrace
