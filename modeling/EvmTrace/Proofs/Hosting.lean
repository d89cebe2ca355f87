import EvmTrace.Session
import EvmTrace.Proofs.Ensemble
import EvmTrace.Proofs.Files

/-!
# Ensembles in sessions

When its members have names, an ensemble does just what a session does with the tracers of these
names, up to the same fault.
-/
namespace EvmTrace

theorem Session.lookup_assign_of_ne {α : Type} {key other : String} (h : other ≠ key)
    (value : α) (entries : List (String × α)) :
    (Session.assign key value entries).lookup other = entries.lookup other := by
  have hother : (other == key) = false := by simpa using h
  rw [Session.assign, List.lookup_cons, hother]
  exact lookup_filter_of_ne h entries

namespace Ensemble

variable {ι : Type} [DecidableEq ι] {e : Ensemble ι} {m : Option ι} {k : ι}

def tracer (e : Ensemble ι) : Option ι → Tracer
  | none => e.canonical
  | some k => .draft (e.drafts k)

theorem tracer_put {receiver : Option ι} (other : receiver ≠ some k) (d : Draft) :
    (e.put k d).tracer receiver = e.tracer receiver := by
  cases receiver with
  | none => rfl
  | some j =>
    have hj : j ≠ k := fun hj => other (by rw [hj])
    simp [tracer, put, hj]

/-- What a session is asked to do for an act when the members have names. -/
def Act.action (name : Option ι → String) : Act ι → Session.Action
  | .perform m op => .perform (name m) op
  | .start lender k _ tx index baseFee =>
    .startSpeculative (name lender) (name (some k)) tx index baseFee
  | .flushTransaction receiver k _ => .flushTransaction (name receiver) (name (some k))
  | .flushBlock receiver k _ => .flushBlock (name receiver) (name (some k))
  | .abandon k => .abandon (name (some k))

/-- The session has all members of the ensemble under their names. -/
structure Hosted (name : Option ι → String) (s : Session) (e : Ensemble ι) : Prop where
  tracers : ∀ m, s.tracers.lookup (name m) = some (e.tracer m)
  files : s.files = e.files

namespace Hosted

variable {name : Option ι → String} {session : Session}

omit [DecidableEq ι] in
theorem tracer_eq (h : Hosted name session e) (m : Option ι) :
    session.tracer (name m) = .ok (e.tracer m) := by
  simp [Session.tracer, h.tracers m]

omit [DecidableEq ι] in
theorem draft_eq (h : Hosted name session e) (k : ι) :
    session.draft (name (some k)) = .ok (e.drafts k) := by
  simp [Session.draft, h.tracers, tracer, Tracer.draft?]

theorem put (hname : name.Injective) (h : Hosted name session e) (k : ι) (d : Draft) :
    Hosted name (session.put (name (some k)) (.draft d)) (e.put k d) where
  tracers m := by
    by_cases hm : m = some k
    · subst hm
      rw [Session.put, Session.lookup_assign]
      simp [tracer, Ensemble.put]
    · rw [Session.put, Session.lookup_assign_of_ne (hname.ne hm), h.tracers, tracer_put hm]
  files := h.files

theorem settle (hname : name.Injective) (h : Hosted name session e) (m : Option ι) (s : Step)
    (reply : Session.Reply) :
    Hosted name (session.settle (name m) ((e.tracer m).take session.files s) reply).session
      (e.take m s) := by
  rw [h.files]
  cases m with
  | none =>
    refine ⟨fun m => ?_, rfl⟩
    by_cases hm : m = none
    · subst hm
      exact Session.lookup_assign ..
    · refine (Session.lookup_assign_of_ne (hname.ne hm) _ _).trans ((h.tracers m).trans ?_)
      cases m with
      | none => exact absurd rfl hm
      | some j => rfl
  | some k =>
    obtain ⟨htracers, hfiles⟩ := h.put hname k ((e.drafts k).absorb s)
    exact ⟨htracers, rfl⟩

theorem flushed (hname : name.Injective) (h : Hosted name session e) {receiver : Option ι}
    (other : receiver ≠ some k) (s : Step) (d : Draft) :
    Hosted name ((session.put (name (some k)) (.draft d)).settle (name receiver)
      ((e.tracer receiver).take session.files s) .nothing).session
      ((e.put k d).take receiver s) := by
  have hput := (h.put hname k d).settle hname receiver s .nothing
  rwa [tracer_put other] at hput

end Hosted

/-- The session carries out what the ensemble does, or stops with the same fault. -/
def CarriedOut (name : Option ι → String) (done : Except Fault (Ensemble ι × Entry ι))
    (result : Except Session.Stop Session.Result) : Prop :=
  match done with
  | .ok (e, _) => ∃ r, result = .ok r ∧ r.reply.isFinal = false ∧ Hosted name r.session e
  | .error f => result = .error (.fault f)

omit [DecidableEq ι] in
theorem carriedOut_bind {α : Type} {name : Option ι → String} (x : Except Fault α)
    {f : α → Ensemble ι × Entry ι} {g : α → Session.Result}
    (h : ∀ y, (g y).reply.isFinal = false ∧ Hosted name (g y).session (f y).1) :
    CarriedOut name (x >>= fun y => pure (f y)) (Session.orStop x >>= fun y => pure (g y)) := by
  cases x with
  | error fault => rfl
  | ok y => exact ⟨g y, rfl, h y⟩

omit [DecidableEq ι] in
theorem recorder_tracer (e : Ensemble ι) (m : Option ι) : (e.tracer m).recorder = e.recorder m := by
  cases m <;> rfl

/-- An act is what a session does for it. -/
theorem Hosted.act {name : Option ι → String} {session : Session} (hname : name.Injective)
    (h : Hosted name session e) (a : Act ι) :
    CarriedOut name (e.act a) (session.act (a.action name)) := by
  cases a with
  | perform m op =>
    have hsession : session.act (.perform (name m) op) =
        Session.orStop ((e.recorder m).perform op) >>= fun s =>
          pure (session.settle (name m) ((e.tracer m).take session.files s)
            (s.calls.head?.elim .nothing .call)) := by
      simp only [Session.act, h.tracer_eq, ok_bind, Tracer.perform, recorder_tracer]
      cases (e.recorder m).perform op <;> rfl
    rw [Act.action, hsession]
    refine carriedOut_bind _ fun s => ⟨?_, h.settle hname m s _⟩
    cases hcalls : s.calls <;> simp [Session.settle, Session.Reply.isFinal]
  | start lender k other tx index baseFee =>
    have hsession : session.act (.startSpeculative (name lender) (name (some k)) tx index baseFee) =
        Session.orStop ((e.recorder lender).startSpeculative (e.drafts k) tx index baseFee) >>=
          fun y => pure ⟨session.put (name (some k)) (.draft y.1), .nothing, y.2⟩ := by
      simp only [Session.act, h.tracer_eq, h.draft_eq, ok_bind, recorder_tracer]
    rw [Act.action, hsession]
    exact carriedOut_bind _ fun y => ⟨rfl, h.put hname k y.1⟩
  | flushTransaction receiver k other =>
    have hsession : session.act (.flushTransaction (name receiver) (name (some k))) =
        Session.orStop ((e.recorder receiver).flushTransaction (e.drafts k)) >>= fun y =>
          pure ((session.put (name (some k)) (.draft y.2)).settle (name receiver)
            ((e.tracer receiver).take session.files y.1) .nothing) := by
      simp only [Session.act, h.tracer_eq, h.draft_eq, ok_bind, Tracer.flushTransaction,
        recorder_tracer]
      cases (e.recorder receiver).flushTransaction (e.drafts k) <;> rfl
    rw [Act.action, hsession]
    exact carriedOut_bind _ fun y => ⟨rfl, h.flushed hname other y.1 y.2⟩
  | flushBlock receiver k other =>
    have hsession : session.act (.flushBlock (name receiver) (name (some k))) =
        Session.orStop ((e.recorder receiver).flushBlock (e.drafts k)) >>= fun y =>
          pure ((session.put (name (some k)) (.draft y.2)).settle (name receiver)
            ((e.tracer receiver).take session.files y.1) .nothing) := by
      simp only [Session.act, h.tracer_eq, h.draft_eq, ok_bind, Tracer.flushBlock,
        recorder_tracer]
      cases (e.recorder receiver).flushBlock (e.drafts k) <;> rfl
    rw [Act.action, hsession]
    exact carriedOut_bind _ fun y => ⟨rfl, h.flushed hname other y.1 y.2⟩
  | abandon k =>
    have hsession : session.act (.abandon (name (some k))) =
        .ok ⟨session.put (name (some k)) (.draft (e.drafts k).abandon.1), .nothing,
          (e.drafts k).abandon.2⟩ := by
      simp only [Session.act, h.draft_eq, ok_bind]
      rfl
    exact ⟨_, hsession, rfl, h.put hname k _⟩

/-- A run is what a session does for it, up to the same fault. -/
theorem Hosted.run {name : Option ι → String} {session : Session} (hname : name.Injective)
    (h : Hosted name session e) (acts : List (Act ι)) :
    match e.run acts with
    | .ok (e', _) => ∃ results, session.run (acts.map (·.action name)) = (results, none) ∧
        Hosted name (results.getLast?.elim session (·.session)) e'
    | .error f => ∃ results,
        session.run (acts.map (·.action name)) = (results, some (.fault f)) := by
  induction acts generalizing session e with
  | nil => exact ⟨[], rfl, h⟩
  | cons a acts ih =>
    have ha := h.act hname a
    cases hact : e.act a with
    | error f =>
      rw [hact] at ha
      have herror : e.run (a :: acts) = .error f := by rw [Ensemble.run, hact]; rfl
      simp only [herror, List.map_cons, Session.run]
      rw [show session.act (a.action name) = .error (.fault f) from ha]
      exact ⟨[], rfl⟩
    | ok done =>
      obtain ⟨e₁, entry⟩ := done
      rw [hact] at ha
      obtain ⟨r, hr, hfinal, h₁⟩ := ha
      have hrest := ih h₁
      have hrun : e.run (a :: acts) = _ := run_cons_of_ok hact
      simp only [hrun, List.map_cons, Session.run, hr, hfinal, Bool.false_eq_true, if_false]
      cases hacts : e₁.run acts with
      | error f =>
        rw [hacts] at hrest
        obtain ⟨results, hresults⟩ := hrest
        exact ⟨r :: results, by rw [hresults]⟩
      | ok done =>
        rw [hacts] at hrest
        obtain ⟨results, hresults, hlast⟩ := hrest
        refine ⟨r :: results, by rw [hresults], ?_⟩
        rw [List.getLast?_cons]
        cases hend : results.getLast? with
        | none => simpa [hend] using hlast
        | some last => simpa [hend] using hlast

end Ensemble
end EvmTrace
