import EvmTrace.Proofs.Ensemble

/-!
# Readers beside the members of an ensemble

Flushes put many lines into the trace of their receiver at once. The reader of that trace still
comes to stand where the receiver does, as long as drafts keep to what they are for and every flush
finds both sides between two units of work.
-/
namespace EvmTrace

namespace Ensemble

variable {ι : Type} [DecidableEq ι]

/-- Drafts keep to what they are for: one for transactions records no boundary of a block and gets
no blocks, and one for blocks is lent none. -/
def Act.KeepsTo (forBlocks : ι → Bool) : Act ι → Prop
  | .perform m op => m.all forBlocks = true ∨ op.isBoundary = false
  | .start _ k .. => forBlocks k = false
  | .flushTransaction _ k _ => forBlocks k = false
  | .flushBlock receiver k _ => forBlocks k = true ∧ receiver.all forBlocks = true
  | .abandon _ => True

/-- A flush finds both sides between two units of work. That a draft has ended its transaction or
its block, and that a transaction comes into a block, the flush checks itself. -/
def Fits (e : Ensemble ι) : Act ι → Prop
  | .flushTransaction receiver k _ => (e.recorder receiver).enabled = true →
    (e.recorder receiver).inTransaction = false ∧ (e.recorder receiver).calls.calls = [] ∧
      (e.drafts k).recorder.calls.calls = []
  | .flushBlock receiver k _ => (e.recorder receiver).enabled = true →
    (e.recorder receiver).block = none ∧ (e.recorder receiver).calls.calls = [] ∧
      (e.drafts k).recorder.calls.calls = []
  | _ => True

/-- Whether the lines of a member are those of transactions only, which nest inside a block. -/
def isLent (forBlocks : ι → Bool) (m : Option ι) : Bool := !m.all forBlocks

/-- The lines of every member lead the reader to where its recorder stands. -/
def Reads {σ : Type} (R : Reader σ) (forBlocks : ι → Bool) (e : Ensemble ι) (t : Trace) : Prop :=
  ∀ m, R.readAll (R.start (isLent forBlocks m)) (e.lines t m) =
    some (R.beside (e.recorder m) (isLent forBlocks m))

variable {σ : Type} {R : Reader σ} {forBlocks : ι → Bool} {e e' : Ensemble ι} {t : Trace}
  {m : Option ι} {k : ι} {s : Step} {entry : Entry ι} {a : Act ι}

theorem Reads.take (h : Reads R forBlocks e t)
    (hs : R.readAll (R.beside (e.recorder m) (isLent forBlocks m)) s.trace =
      some (R.beside s.recorder (isLent forBlocks m))) :
    Reads R forBlocks (e.take m s) (t ++ Entry.of ⟨m, s.trace⟩ none) := by
  intro m'
  rw [lines_take, recorder_take, Reader.readAll_append, h m', Option.bind_some]
  by_cases hm : m' = m
  · subst hm
    simpa [Entry.of] using hs
  · simp [Entry.of, hm, Ne.symm hm]

theorem Reads.put (h : Reads R forBlocks e t) {d : Draft}
    (hd : R.readAll (R.start (isLent forBlocks (some k))) d.trace =
      some (R.beside d.recorder (isLent forBlocks (some k)))) :
    Reads R forBlocks (e.put k d) t := by
  intro m'
  rw [lines_put, recorder_put]
  by_cases hm : m' = some k
  · subst hm
    simpa using hd
  · simpa [hm] using h m'

/-- The lines of whole units of work go from a draft to a receiver that stands between two. -/
theorem Reads.flush (h : Reads R forBlocks e t) {receiver : Option ι} (other : receiver ≠ some k)
    {d : Draft} {unit : σ} (hunit : R.start (isLent forBlocks (some k)) = unit)
    (hdone : R.beside (e.drafts k).recorder (isLent forBlocks (some k)) = unit)
    (hempty : d.trace = []) (hd : R.beside d.recorder (isLent forBlocks (some k)) = unit)
    (hbefore : R.beside (e.recorder receiver) (isLent forBlocks receiver) = unit)
    (hs : s.trace = (e.drafts k).trace)
    (hafter : R.beside s.recorder (isLent forBlocks receiver) = unit) :
    Reads R forBlocks ((e.put k d).take receiver s)
      (t ++ Entry.of ⟨receiver, s.trace⟩ none) := by
  have hlines : R.readAll unit (e.drafts k).trace = some unit := by
    have hk := h (some k)
    rw [hunit] at hk
    exact hk.trans (congrArg some hdone)
  have hput : Reads R forBlocks (e.put k d) t := by
    apply h.put
    rw [hempty, hd, hunit]
    rfl
  apply hput.take
  rw [recorder_put, Function.update_of_ne other, hbefore, hs, hlines, hafter]

theorem reads_flushTransaction {receiver : Option ι} {other : receiver ≠ some k}
    (hR : R.Lawful) (h : Reads R forBlocks e t) (hkeeps : forBlocks k = false)
    (hfits : e.Fits (.flushTransaction receiver k other))
    (hact : e.act (.flushTransaction receiver k other) = .ok (e', entry)) :
    Reads R forBlocks e' (t ++ entry.of none) := by
  have hlent : isLent forBlocks (some k) = true := by simpa [isLent] using hkeeps
  -- only the block scope goes, and the lines count as lying in a block without it
  have hreleased (q : Recorder) : R.beside q.leaveBlock true = R.beside q true :=
    hR.same q q.leaveBlock true rfl rfl rfl
  rcases act_flushTransaction_ok hact with ⟨-, rfl, rfl⟩ | ⟨henabled, hblock, hended, -, rfl, rfl⟩
  · rw [Entry.of_nil, List.append_nil]
    apply h.put
    have hdraft := h (some k)
    rw [hlent] at hdraft ⊢
    exact hdraft.trans (congrArg some (hreleased _).symm)
  · obtain ⟨houtside, hcalls, hclosed⟩ := hfits henabled
    have hdraft : R.beside (e.drafts k).recorder true = R.start true :=
      hR.idle _ true hended hclosed
    have hbetween : R.beside (e.recorder receiver) (isLent forBlocks receiver) = R.start true := by
      rw [hR.idle _ _ houtside hcalls, Recorder.inBlock_iff.mpr hblock, Bool.or_true]
    rw [← Recorder.trace_receive (e.recorder receiver)]
    apply h.flush other (by rw [hlent])
    · rw [hlent]
      exact hdraft
    · rfl
    · rw [hlent]
      exact (hreleased _).trans hdraft
    · exact hbetween
    · exact Recorder.trace_receive ..
    · rw [Recorder.receive_eq, ← hbetween]
      exact hR.same _ _ _ rfl rfl rfl

theorem reads_flushBlock {receiver : Option ι} {other : receiver ≠ some k} (hR : R.Lawful)
    (h : Reads R forBlocks e t) (hblocks : forBlocks k = true)
    (hreceiver : receiver.all forBlocks = true) (hfits : e.Fits (.flushBlock receiver k other))
    (hact : e.act (.flushBlock receiver k other) = .ok (e', entry)) :
    Reads R forBlocks e' (t ++ entry.of none) := by
  rcases act_flushBlock_ok hact with ⟨-, rfl, rfl⟩ | ⟨henabled, hended, rfl, rfl⟩
  · rwa [Entry.of_nil, List.append_nil]
  · obtain ⟨houtside, hcalls, hclosed⟩ := hfits henabled
    have hoff {m : Option ι} (hown : isLent forBlocks m = false)
        (hblock : (e.recorder m).block = none) (hcalls : (e.recorder m).calls.calls = []) :
        R.beside (e.recorder m) (isLent forBlocks m) = R.start false := by
      have hm := h m
      rw [hown] at hm ⊢
      rw [hR.idle _ false (hR.outside _ _ hm hblock hcalls) hcalls]
      simp [Recorder.inBlock, hblock]
    have hlent : isLent forBlocks (some k) = false := by simp [isLent, hblocks]
    have hdraft := hoff hlent hended hclosed
    have hbetween := hoff (by simp [isLent, hreceiver]) houtside hcalls
    rw [← Recorder.trace_receiveBlock (e.recorder receiver)]
    exact h.flush other (by rw [hlent]) hdraft rfl hdraft hbetween
      (Recorder.trace_receiveBlock ..) hbetween

/-- What a reader has to know of the members is that it can read what each of them puts out by
itself. -/
theorem reads_act (hR : R.Lawful) (h : Reads R forBlocks e t) (hkeeps : a.KeepsTo forBlocks)
    (hfits : e.Fits a)
    (hperform : ∀ m op s, a = .perform m op →
      (isLent forBlocks m = true → op.isBoundary = false) → (e.recorder m).perform op = .ok s →
      R.readAll (R.beside (e.recorder m) (isLent forBlocks m)) s.trace =
        some (R.beside s.recorder (isLent forBlocks m)))
    (hact : e.act a = .ok (e', entry)) : Reads R forBlocks e' (t ++ entry.of none) := by
  cases a with
  | perform m op =>
    obtain ⟨s, hs, rfl, rfl⟩ := act_perform_ok hact
    refine h.take (hperform m op s rfl (fun hlent => ?_) hs)
    rcases hkeeps with hall | hop
    · simp [isLent, hall] at hlent
    · exact hop
  | start lender k other tx index baseFee =>
    have hlent : isLent forBlocks (some k) = true := by simpa [isLent, Act.KeepsTo] using hkeeps
    obtain ⟨-, s, rfl, rfl, ⟨-, rfl⟩ | ⟨-, hblock, htransaction, hcalls, rfl⟩⟩ := act_start_ok hact
    · exact h.take rfl
    · apply h.take
      rw [hlent, hR.idle _ true htransaction hcalls, Bool.true_or]
      exact hR.starts _ _ rfl rfl
  | flushTransaction receiver k other => exact reads_flushTransaction hR h hkeeps hfits hact
  | flushBlock receiver k other => exact reads_flushBlock hR h hkeeps.1 hkeeps.2 hfits hact
  | abandon k =>
    obtain ⟨rfl, rfl⟩ := Prod.mk.inj (Except.ok.inj hact)
    rw [Entry.of_nil, List.append_nil]
    apply h.put
    exact congrArg some (hR.same _ _ _ rfl rfl rfl)

omit [DecidableEq ι] in
theorem Untouched.reads (hR : R.Lawful) (h : e.Untouched) : Reads R forBlocks e [] := by
  have hfresh (enabled progress lent : Bool) :
      R.start lent = R.beside (.fresh enabled progress) lent :=
    hR.same (.fresh enabled progress) (.fresh true false) lent rfl rfl rfl
  intro m
  cases m with
  | none =>
    obtain ⟨progress, hnew⟩ := h.canonical
    rw [show e.recorder none = _ from hnew]
    exact congrArg some (hfresh ..)
  | some k =>
    obtain ⟨enabled, progress, hnew, htrace⟩ := h.drafts k
    rw [show e.recorder (some k) = _ from hnew, lines, htrace]
    exact congrArg some (hfresh ..)

theorem reads_run (hR : R.Lawful) {acts : List (Act ι)} {j : Journal ι}
    {P : Ensemble ι → Act ι → Prop} (h : e.Untouched) (hkeeps : ∀ a ∈ acts, a.KeepsTo forBlocks)
    (hfits : Along Fits e acts) (halong : Along P e acts)
    (hperform : ∀ (e : Ensemble ι) m op s, P e (.perform m op) →
      (isLent forBlocks m = true → op.isBoundary = false) → (e.recorder m).perform op = .ok s →
      R.readAll (R.beside (e.recorder m) (isLent forBlocks m)) s.trace =
        some (R.beside s.recorder (isLent forBlocks m)))
    (hrun : e.run acts = .ok (e', j)) : Reads R forBlocks e' (j.of none) :=
  run_induction (fun e a => (a.KeepsTo forBlocks ∧ e.Fits a) ∧ P e a) (Reads R forBlocks) (t := [])
    (fun _ _ _ _ _ hreads hP hact => reads_act hR hreads hP.1.1 hP.1.2
      (fun m op s ha => by
        subst ha
        exact hperform _ m op s hP.2) hact)
    (h.reads hR) (((along_of_forall fun a ha _ => hkeeps a ha).and hfits).and halong) hrun

end Ensemble
end EvmTrace
