import EvmTrace.Recorder.Basic
import Mathlib.Tactic.Simps.Basic

/-!
# Readers

A reader takes in the lines of a trace one by one, refuses those that have no place, and stands
where the recorder does that put them out.
-/
namespace EvmTrace

structure Reader (σ : Type) where
  accepts : σ → Event → Bool
  after : σ → Event → σ
  /-- Where it stands beside a recorder, to which a block may be lent. -/
  beside : Recorder → Bool → σ

namespace Reader

variable {σ τ : Type} {R : Reader σ} {S : Reader τ} {a b : σ} {e : Event} {t : Trace}

def read (R : Reader σ) (a : σ) (e : Event) : Option σ :=
  if R.accepts a e then some (R.after a e) else none

def readAll (R : Reader σ) (a : σ) (t : Trace) : Option σ := t.foldlM R.read a

/-- Where it stands beside a recorder that is new. -/
def start (R : Reader σ) (lent : Bool) : σ := R.beside (.fresh true false) lent

@[simp] theorem readAll_nil (R : Reader σ) (a : σ) : R.readAll a [] = some a := rfl

theorem readAll_append (R : Reader σ) (a : σ) (s t : Trace) :
    R.readAll a (s ++ t) = (R.readAll a s).bind (R.readAll · t) := by
  simp [readAll]

theorem readAll_append_eq_some {s : Trace} : R.readAll a (s ++ t) = some b ↔
    ∃ c, R.readAll a s = some c ∧ R.readAll c t = some b := by
  rw [readAll_append, Option.bind_eq_some_iff]

theorem readAll_cons_eq_some : R.readAll a (e :: t) = some b ↔
    R.accepts a e = true ∧ R.readAll (R.after a e) t = some b := by
  cases haccepts : R.accepts a e with
  | false => simp [readAll, read, haccepts]
  | true => simp [readAll, read, haccepts]

theorem readAll_singleton (h : R.accepts a e = true) : R.readAll a [e] = some (R.after a e) :=
  readAll_cons_eq_some.mpr ⟨h, rfl⟩

/-- A trace that is read to its end has each of its events in place. -/
theorem readAll_append_cons {before rest : Trace} :
    R.readAll a (before ++ e :: rest) = some b ↔
      ∃ c, R.readAll a before = some c ∧ R.accepts c e = true ∧
        R.readAll (R.after c e) rest = some b := by
  simp only [readAll_append_eq_some, readAll_cons_eq_some]

/-- Whoever reads more finely can be followed by one who reads less so. -/
theorem readAll_map (view : σ → τ) (hview : ∀ a e, R.accepts a e = true →
      S.accepts (view a) e = true ∧ S.after (view a) e = view (R.after a e))
    (h : R.readAll a t = some b) : S.readAll (view a) t = some (view b) := by
  induction t generalizing a with
  | nil =>
    obtain rfl := Option.some.inj h
    rfl
  | cons e t ih =>
    obtain ⟨hread, hrest⟩ := readAll_cons_eq_some.mp h
    obtain ⟨haccepts, hafter⟩ := hview a e hread
    refine readAll_cons_eq_some.mpr ⟨haccepts, ?_⟩
    rw [hafter]
    exact ih hrest

/-- Refuses some lines on top of what it refuses anyway. -/
@[simps] def guarded (R : Reader σ) (ok : σ → Event → Bool) : Reader σ :=
  { R with accepts := fun a e => ok a e && R.accepts a e }

variable {ok : σ → Event → Bool}

theorem readAll_of_guarded (h : (R.guarded ok).readAll a t = some b) : R.readAll a t = some b :=
  readAll_map (R := R.guarded ok) (S := R) id
    (fun _ _ haccepts => ⟨(Bool.and_eq_true_iff.mp haccepts).2, rfl⟩) h

theorem readAll_guarded (hok : ∀ e ∈ t, ∀ a, ok a e = true) (h : R.readAll a t = some b) :
    (R.guarded ok).readAll a t = some b := by
  induction t generalizing a with
  | nil => exact h
  | cons e t ih =>
    obtain ⟨hread, hrest⟩ := readAll_cons_eq_some.mp h
    refine readAll_cons_eq_some.mpr ⟨Bool.and_eq_true_iff.mpr ⟨hok e (by simp) a, hread⟩, ?_⟩
    exact ih (fun e he => hok e (by simp [he])) hrest

theorem readAll_guarded_singleton (hok : ok a e = true) (h : R.readAll a [e] = some b) :
    (R.guarded ok).readAll a [e] = some b := by
  obtain ⟨hread, hrest⟩ := readAll_cons_eq_some.mp h
  exact readAll_cons_eq_some.mpr ⟨Bool.and_eq_true_iff.mpr ⟨hok, hread⟩, hrest⟩

/-- What of a recorder a reader may go by. -/
structure Lawful (R : Reader σ) : Prop where
  same : ∀ r q lent, (lent || q.inBlock) = (lent || r.inBlock) →
    q.inTransaction = r.inTransaction → q.calls = r.calls → R.beside q lent = R.beside r lent
  /-- Between two units of work, nothing is left of the one before. -/
  idle : ∀ r lent, r.inTransaction = false → r.calls.calls = [] →
    R.beside r lent = R.start (lent || r.inBlock)
  /-- Inside a block, a transaction can be read from its start. -/
  starts : ∀ r x, r.inTransaction = true → r.calls = .empty →
    R.readAll (R.start true) [.transactionStart x] = some (R.beside r true)
  /-- Outside all blocks there is no transaction. -/
  outside : ∀ r t, R.readAll (R.start false) t = some (R.beside r false) → r.block = none →
    r.calls.calls = [] → r.inTransaction = false

theorem Lawful.guarded (hR : R.Lawful)
    (hok : ∀ a x, ok a (.transactionStart x) = true) : (R.guarded ok).Lawful where
  same := hR.same
  idle := hR.idle
  starts r x htransaction hcalls :=
    readAll_guarded_singleton (hok _ x) (hR.starts r x htransaction hcalls)
  outside r t hread := hR.outside r t (readAll_of_guarded hread)

end Reader

end EvmTrace
