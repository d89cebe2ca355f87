import EvmTrace.Delivery
import EvmTrace.Field
import EvmTrace.Proofs.Files

/-!
# How byte strings are delivered

Whatever the sink does, a delivery makes attempts that each offer what the sink has not taken yet,
and ends with a flush or with a notice. The notices of a run gather in the fallback file.
-/
namespace EvmTrace.Writer

/-- An offer to the sink, and how it was answered. -/
structure Attempt where
  offered : Bytes
  answer : Except SinkError Nat

namespace Attempt

def call (a : Attempt) : Sink.Call := .write a.offered a.answer

def accepted (a : Attempt) : Bytes := a.call.accepted

/-- The count in the answer, whatever was offered. -/
def answered (a : Attempt) : Nat :=
  match a.answer with
  | .ok count => count
  | .error _ => 0

def error? (a : Attempt) : Option SinkError :=
  match a.answer with
  | .ok _ => none
  | .error e => some e

theorem accepted_eq_take (a : Attempt) : a.accepted = a.offered.take a.answered := by
  unfold accepted call answered
  cases a.answer <;> simp [Sink.Call.accepted]

end Attempt

def taken (attempts : List Attempt) : Bytes := attempts.flatMap Attempt.accepted

def answeredTotal (attempts : List Attempt) : Nat :=
  attempts.foldr (fun a total => a.answered + total) 0

/-- The attempts to deliver a byte string. -/
structure Series (b : Bytes) (attempts : List Attempt) : Prop where
  /-- Each attempt offers all that was not taken before it, and nothing else. -/
  offered : ∀ before a rest, attempts = before ++ a :: rest → taken before ++ a.offered = b
  /-- There is no attempt once everything is taken. -/
  needed : ∀ a ∈ attempts, a.offered ≠ []
  isPrefix : taken attempts <+: b
  full_iff : taken attempts = b ↔ b.length ≤ answeredTotal attempts

/-- Why a series of attempts was given up: its last error, or else what it left. -/
def refusal (b : Bytes) (attempts : List Attempt) : Rejection :=
  match (attempts.filterMap Attempt.error?).getLast? with
  | some e => .sinkError e
  | none => .shortWrite (b.length - (taken attempts).length)

theorem taken_cons (a : Attempt) (rest : List Attempt) :
    taken (a :: rest) = a.accepted ++ taken rest := by
  simp [taken]

theorem Series.nil (b : Bytes) : Series b [] where
  offered before a rest hsplit := by simp at hsplit
  needed a ha := by simp at ha
  isPrefix := List.nil_prefix
  full_iff := by simp [taken, answeredTotal, eq_comm]

/-- An attempt, and then those for what it left. -/
theorem Series.cons {a : Attempt} {rest : List Attempt} (ha : a.offered ≠ [])
    (h : Series (a.offered.drop a.answered) rest) : Series a.offered (a :: rest) where
  offered before x after hsplit := by
    cases before with
    | nil =>
      obtain ⟨rfl, -⟩ := List.cons.inj hsplit
      rfl
    | cons y before =>
      obtain ⟨rfl, hrest⟩ := List.cons.inj hsplit
      rw [taken_cons, List.append_assoc, h.offered before x after hrest, a.accepted_eq_take,
        List.take_append_drop]
  needed x hx := by
    rcases List.mem_cons.mp hx with rfl | hx
    · exact ha
    · exact h.needed x hx
  isPrefix := by
    obtain ⟨left, hleft⟩ := h.isPrefix
    refine ⟨left, ?_⟩
    rw [taken_cons, List.append_assoc, hleft, a.accepted_eq_take, List.take_append_drop]
  full_iff := by
    have hsplit : taken (a :: rest) = a.offered ↔ taken rest = a.offered.drop a.answered := by
      conv_lhs => rhs; rw [← List.take_append_drop a.answered a.offered]
      rw [taken_cons, a.accepted_eq_take, List.append_cancel_left_eq]
    have htotal : answeredTotal (a :: rest) = a.answered + answeredTotal rest := rfl
    rw [hsplit, h.full_iff, htotal, List.length_drop]
    omega

/-- What attempts leave is what was not taken, and the last error among them is kept. -/
structure Reaches (p q : Progress) (attempts : List Attempt) : Prop where
  calls : q.sink.calls = (attempts.map Attempt.call).reverse ++ p.sink.calls
  remaining : taken attempts ++ q.remaining = p.remaining
  lastError : q.lastError = (attempts.filterMap Attempt.error?).getLast?.or p.lastError

def nextAttempt (p : Progress) : Attempt := ⟨p.remaining, (p.sink.write p.remaining).1⟩

theorem sink_attempt (p : Progress) : (attempt p).sink = (p.sink.write p.remaining).2 := by
  unfold attempt
  split <;> simp_all

theorem remaining_attempt (p : Progress) :
    (attempt p).remaining = p.remaining.drop (nextAttempt p).answered := by
  unfold attempt nextAttempt Attempt.answered
  split <;> simp_all

theorem Reaches.refl (p : Progress) : Reaches p p [] := ⟨rfl, rfl, rfl⟩

theorem Reaches.trans {p q r : Progress} {as bs : List Attempt} (h : Reaches p q as)
    (g : Reaches q r bs) : Reaches p r (as ++ bs) where
  calls := by simp [g.calls, h.calls]
  remaining := by
    rw [← h.remaining, ← g.remaining]
    simp [taken]
  lastError := by
    rw [g.lastError, h.lastError]
    simp [List.getLast?_append, Option.or_assoc]

theorem reaches_attempt (p : Progress) : Reaches p (attempt p) [nextAttempt p] where
  calls := by
    rw [sink_attempt]
    rfl
  remaining := by
    rw [remaining_attempt, taken_cons, Attempt.accepted_eq_take]
    simp [taken, nextAttempt]
  lastError := by
    unfold attempt
    split <;> simp_all [nextAttempt, Attempt.error?]

/-- The attempts that are made form a series, and only a limit that is used up leaves a rest. -/
theorem attempts_spec (limit : Nat) (p : Progress) (h : p.remaining ≠ []) :
    ∃ as, Series p.remaining as ∧ Reaches p (attempts limit p) as ∧ as.length ≤ limit ∧
      ((attempts limit p).remaining ≠ [] → as.length = limit) := by
  induction limit generalizing p with
  | zero => exact ⟨[], .nil _, .refl p, Nat.le_refl 0, fun _ => rfl⟩
  | succ limit ih =>
    have hfirst := reaches_attempt p
    have hrest := remaining_attempt p
    unfold attempts
    by_cases hdone : (attempt p).remaining = []
    · rw [if_pos (by simp [hdone])]
      exact ⟨[nextAttempt p], .cons (a := nextAttempt p) h (.nil _), hfirst, by simp,
        fun hleft => absurd hdone hleft⟩
    · rw [if_neg (by simp [hdone])]
      obtain ⟨as, hseries, hreaches, hlength, hfull⟩ := ih (attempt p) hdone
      rw [hrest] at hseries
      refine ⟨nextAttempt p :: as, .cons (a := nextAttempt p) h hseries,
        hfirst.trans hreaches, ?_, ?_⟩
      · simpa using hlength
      · intro hleft
        simpa using hfull hleft

/-- What became of a byte string: the attempts that were made for it, all calls that the sink got,
and what was added to the fallback file. -/
structure Episode where
  attempts : List Attempt
  calls : List Sink.Call
  record : Option Bytes

inductive Use
  | print (fields : List Field)
  | write (b : Bytes)

def Use.bytes : Use → Bytes
  | print fields => Line.ofFields fields
  | write b => b

def deliverAll (w : Writer) (files : Files) : List Use → Delivered
  | [] => ⟨w, files, []⟩
  | use :: uses =>
    let first := w.deliver files use.bytes
    let d := first.writer.deliverAll first.files uses
    { d with notes := first.notes ++ d.notes }

def records (episodes : List Episode) : List Bytes := episodes.filterMap Episode.record

end EvmTrace.Writer
