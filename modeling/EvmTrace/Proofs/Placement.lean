import EvmTrace.Proofs.Twins

/-!
# Ensembles within ensembles

The members of an ensemble can have their twins in a larger one, where even a draft may stand in for
the canonical tracer. What an ensemble does, the twins of its members do there, up to the same
fault.
-/
namespace EvmTrace

/-! ## Tracers -/

inductive Tracer.Twins : Tracer → Tracer → Prop
  | direct {r q : Recorder} (h : r.Twins q) (w : Writer) : Twins (.direct r w) (.direct q w)
  | draft {d d' : Draft} (h : d.Twins d') : Twins (.draft d) (.draft d')

namespace Tracer.Twins

variable {t t' : Tracer}

theorem refl (t : Tracer) : t.Twins t := by
  cases t with
  | direct r w => exact .direct (.refl r) w
  | draft d => exact .draft (.refl d)

theorem content (h : t.Twins t') : t'.content = t.content := by
  cases h with
  | direct hr w => rfl
  | draft hd => rw [Tracer.content, hd.trace, Tracer.content]

theorem take (h : t.Twins t') (files : Files) {s s' : Step} (hs : s.Twins s') :
    (t.take files s).tracer.Twins (t'.take files s').tracer ∧
      (t'.take files s').files = (t.take files s).files := by
  cases h with
  | direct hr w =>
    simp only [Tracer.take, hs.output]
    exact ⟨.direct hs.recorder _, trivial⟩
  | draft hd => exact ⟨.draft (hd.absorb hs), rfl⟩

end Tracer.Twins

namespace Ensemble

/-- Where the members of an ensemble have their places in another. -/
structure Placement (ι κ : Type) where
  /-- The place of the canonical tracer. -/
  seat : Option κ
  host : ι → κ
  injective : host.Injective
  free : ∀ k, seat ≠ some (host k)

variable {ι κ : Type}

namespace Placement

def member (p : Placement ι κ) : Option ι → Option κ
  | none => p.seat
  | some k => some (p.host k)

theorem member_injective (p : Placement ι κ) : p.member.Injective := by
  intro m m' h
  cases m with
  | none =>
    cases m' with
    | none => rfl
    | some k => exact absurd h (p.free k)
  | some k =>
    cases m' with
    | none => exact absurd h.symm (p.free k)
    | some k' => rw [p.injective (Option.some.inj h)]

theorem member_ne (p : Placement ι κ) {m : Option ι} {k : ι} (other : m ≠ some k) :
    p.member m ≠ some (p.host k) := fun h => other (p.member_injective h)

/-- Everyone in the own place. -/
def same (ι : Type) : Placement ι ι := ⟨none, id, fun _ _ h => h, canonical_ne⟩

theorem member_same (m : Option ι) : (same ι).member m = m := by
  cases m <;> rfl

end Placement

def Act.placed (p : Placement ι κ) : Act ι → Act κ
  | .perform m op => .perform (p.member m) op
  | .start lender k other tx index baseFee =>
    .start (p.member lender) (p.host k) (p.member_ne other) tx index baseFee
  | .flushTransaction receiver k other =>
    .flushTransaction (p.member receiver) (p.host k) (p.member_ne other)
  | .flushBlock receiver k other => .flushBlock (p.member receiver) (p.host k) (p.member_ne other)
  | .abandon k => .abandon (p.host k)

theorem Act.placed_same (a : Act ι) : a.placed (.same ι) = a := by
  cases a with
  | perform m op => rw [Act.placed, Placement.member_same]
  | start lender k other tx index baseFee => cases lender <;> rfl
  | flushTransaction receiver k other => cases receiver <;> rfl
  | flushBlock receiver k other => cases receiver <;> rfl
  | abandon k => rfl

def Entry.placed (p : Placement ι κ) (entry : Entry ι) : Entry κ :=
  ⟨p.member entry.member, entry.lines⟩

theorem Entry.placed_same (entry : Entry ι) : entry.placed (.same ι) = entry := by
  rw [Entry.placed, Placement.member_same]

variable [DecidableEq ι] [DecidableEq κ] {p : Placement ι κ} {e : Ensemble ι} {e' : Ensemble κ}

theorem Entry.of_placed (p : Placement ι κ) (entry : Entry ι) (m : Option ι) :
    (entry.placed p).of (p.member m) = entry.of m := by
  simp only [Entry.of, Entry.placed, p.member_injective.eq_iff]

/-- The numbers of the calls that an act starts. -/
def callsOf (e : Ensemble ι) : Act ι → List Nat
  | .perform m op =>
    match (e.recorder m).perform op with
    | .ok s => s.calls
    | .error _ => []
  | _ => []

/-- The numbers of the calls that the members start in a run, in order. -/
def started (e : Ensemble ι) : List (Act ι) → List Nat
  | [] => []
  | a :: rest =>
    e.callsOf a ++ match e.act a with
      | .ok (e', _) => e'.started rest
      | .error _ => []

/-- All members have a twin in their place. If the canonical tracer keeps its place, so does its
sink. -/
structure Mirrors (p : Placement ι κ) (e : Ensemble ι) (e' : Ensemble κ) : Prop where
  recorders : ∀ m, (e.recorder m).Twins (e'.recorder (p.member m))
  traces : ∀ k, (e'.drafts (p.host k)).trace = (e.drafts k).trace
  canonical : p.seat = none → e.canonical.Twins e'.canonical ∧ e'.files = e.files

namespace Mirrors

omit [DecidableEq ι] [DecidableEq κ] in
theorem draft (h : Mirrors p e e') (k : ι) : (e.drafts k).Twins (e'.drafts (p.host k)) :=
  ⟨h.recorders (some k), h.traces k⟩

theorem take (h : Mirrors p e e') (m : Option ι) {s t : Step} (hst : s.Twins t) :
    Mirrors p (e.take m s) (e'.take (p.member m) t) where
  recorders m' := by
    rw [recorder_take, recorder_take]
    by_cases hm : m' = m
    · subst hm
      rw [Function.update_self, Function.update_self]
      exact hst.recorder
    · rw [Function.update_of_ne hm, Function.update_of_ne (p.member_injective.ne hm)]
      exact h.recorders m'
  traces k := by
    have hlines := lines_take e [] m (some k) s
    have hlines' := lines_take e' [] (p.member m) (p.member (some k)) t
    have hentry := Entry.of_placed p ⟨m, s.trace⟩ (some k)
    rw [hst.trace] at hlines'
    exact hlines'.trans ((congrArg₂ _ (h.traces k) hentry).trans hlines.symm)
  canonical hseat := by
    cases m with
    | some k => exact h.canonical hseat
    | none =>
      obtain ⟨hcanonical, hfiles⟩ := h.canonical hseat
      have hmember : p.member none = none := hseat
      rw [hmember]
      simp only [Ensemble.take, hfiles]
      exact hcanonical.take e.files hst

theorem put (h : Mirrors p e e') (k : ι) {d d' : Draft} (hd : d.Twins d') :
    Mirrors p (e.put k d) (e'.put (p.host k) d') where
  recorders m := by
    rw [recorder_put, recorder_put]
    by_cases hm : m = some k
    · subst hm
      rw [Function.update_self]
      exact (Function.update_self (some (p.host k)) _ _).symm ▸ hd.recorder
    · rw [Function.update_of_ne hm, Function.update_of_ne (p.member_ne hm)]
      exact h.recorders m
  traces k' := by
    by_cases hk : k' = k
    · subst hk
      simpa [Ensemble.put] using hd.trace
    · simpa [Ensemble.put, hk, p.injective.ne hk] using h.traces k'
  canonical := h.canonical

/-- What a member does, its twin does. -/
theorem act (h : Mirrors p e e') (a : Act ι) :
    Concur (fun x y => Mirrors p x.1 y.1 ∧ y.2 = x.2.placed p) (e.act a)
      (e'.act (a.placed p)) := by
  cases a with
  | perform m op =>
    refine ((h.recorders m).perform op).bind fun s t hst => ⟨h.take m hst, ?_⟩
    rw [hst.trace]
    rfl
  | start lender k other tx index baseFee =>
    have hstart := (h.draft k).startSpeculative (h.recorders lender) tx index baseFee
    refine hstart.bind fun x y hxy => ⟨h.put k hxy.1, ?_⟩
    rw [hxy.1.trace, h.traces k]
    rfl
  | flushTransaction receiver k other =>
    have hflush := (h.draft k).flushTransaction (h.recorders receiver)
    refine hflush.bind fun x y hxy => ⟨(h.put k hxy.2).take receiver hxy.1, ?_⟩
    rw [hxy.1.trace]
    rfl
  | flushBlock receiver k other =>
    have hflush := (h.draft k).flushBlock (h.recorders receiver)
    refine hflush.bind fun x y hxy => ⟨(h.put k hxy.2).take receiver hxy.1, ?_⟩
    rw [hxy.1.trace]
    rfl
  | abandon k => exact ⟨h.put k (h.draft k).abandon, rfl⟩

omit [DecidableEq ι] [DecidableEq κ] in
theorem callsOf (h : Mirrors p e e') (a : Act ι) : e'.callsOf (a.placed p) = e.callsOf a := by
  cases a with
  | perform m op =>
    have hperform := (h.recorders m).perform op
    simp only [Ensemble.callsOf, Act.placed]
    exact hperform.split (fun _ _ _ => rfl) fun s t hst => hst.calls
  | _ => rfl

/-- The same for runs, with the same numbers of calls. -/
theorem run (h : Mirrors p e e') (acts : List (Act ι)) :
    Concur (fun x y => Mirrors p x.1 y.1 ∧ y.2 = x.2.map (.placed p)) (e.run acts)
        (e'.run (acts.map (.placed p))) ∧
      e'.started (acts.map (.placed p)) = e.started acts := by
  induction acts generalizing e e' with
  | nil => exact ⟨⟨h, rfl⟩, rfl⟩
  | cons a acts ih =>
    have hact := h.act a
    constructor
    · refine hact.bind fun x y hxy => (ih hxy.1).1.bind fun u v huv => ⟨huv.1, ?_⟩
      rw [hxy.2, huv.2]
      rfl
    · simp only [List.map_cons, started, h.callsOf a]
      exact hact.split (fun _ _ _ => rfl) fun x y hxy => congrArg _ (ih hxy.1).2

end Mirrors

end Ensemble
end EvmTrace
