import EvmTrace.Proofs.Ensemble

/-!
# Lent blocks

A draft that is lent a block keeps its number. The flush compares this number with that of the
block which the receiver is in by then, so it tells apart two blocks of different numbers, but not
a block from its replay.
-/
namespace EvmTrace

namespace Recorder

variable {r : Recorder} {d : Draft} {s : Step} {op : Operation} {number : Option UInt64}

theorem require_eq_error {condition : Bool} {v : Violation} {f : Fault} :
    r.require condition v = .error f ↔ condition = false ∧ f = ⟨v, r⟩ := by
  cases condition <;> simp [require, eq_comm]

theorem flushTransaction_returns (henabled : r.enabled = true) (hlent : d.recorder.block ≠ none) :
    (∃ done, r.flushTransaction d = .ok done) ↔
      r.block ≠ none ∧ d.recorder.inTransaction = false ∧
        d.recorder.blockNumber = r.blockNumber := by
  constructor
  · rintro ⟨⟨s, d'⟩, hdone⟩
    obtain ⟨hblock, hended, hsame, -⟩ := (flushTransaction_eq_ok henabled).mp hdone
    exact ⟨hblock, hended, hsame hlent⟩
  · rintro ⟨hblock, hended, hsame⟩
    exact ⟨_, (flushTransaction_eq_ok henabled).mpr ⟨hblock, hended, fun _ => hsame, rfl, rfl⟩⟩

theorem flushTransaction_error {f : Fault} (henabled : r.enabled = true)
    (h : r.flushTransaction d = .error f) :
    f = ⟨.outsideBlock, r⟩ ∨ f = ⟨.openTransaction, d.recorder⟩ ∨
      f = ⟨.otherBlock, d.recorder⟩ := by
  rw [flushTransaction_enabled henabled] at h
  rcases bind_eq_error.mp h with hblock | ⟨_, _, h⟩
  · exact .inl (require_eq_error.mp hblock).2
  · rcases bind_eq_error.mp h with hended | ⟨_, _, h⟩
    · exact .inr (.inl (require_eq_error.mp hended).2)
    · rcases bind_eq_error.mp h with hsame | ⟨_, _, h⟩
      · exact .inr (.inr (require_eq_error.mp hsame).2)
      · cases h

/-- In no block, or in one of another number. -/
def Elsewhere (r : Recorder) (number : Option UInt64) : Prop :=
  r.block = none ∨ r.blockNumber ≠ number

theorem elsewhere_record (hboundary : op.isBoundary = true)
    (hother : ∀ block, op = .startBlock block → number ≠ some block.number)
    (h : r.record op = .ok s) : s.recorder.Elsewhere number := by
  cases op with
  | startBlock block =>
    obtain ⟨-, -, rfl⟩ := startBlock_eq_ok.mp h
    exact .inr (hother block rfl).symm
  | endBlock block totalDifficulty =>
    obtain ⟨-, -, -, rfl⟩ := endBlock_eq_ok.mp h
    exact .inl rfl
  | cancelBlock block reason =>
    obtain ⟨-, rfl⟩ := cancelBlock_eq_ok.mp h
    exact .inl rfl
  | _ => cases hboundary

end Recorder

namespace Ensemble

variable {ι : Type} [DecidableEq ι] {e e₁ e₂ e' : Ensemble ι} {k : ι} {a : Act ι}
  {acts since : List (Act ι)} {j : Journal ι} {entry : Entry ι} {number : Option UInt64}

omit [DecidableEq ι] in
theorem moves_canonical (h : a.Moves none) :
    ∃ op, a = .perform none op ∧ op.isBoundary = true := by
  cases a with
  | perform m op =>
    obtain ⟨rfl, hboundary⟩ := h
    exact ⟨op, rfl, hboundary⟩
  | flushBlock => exact absurd h id
  | _ => cases h

/-- Once the canonical tracer has left a block it stays elsewhere, unless it starts a block of the
same number. -/
theorem elsewhere_act (henabled : (e.recorder none).enabled = true)
    (hother : ∀ block, a = .perform none (.startBlock block) → number ≠ some block.number)
    (haway : (e.recorder none).Elsewhere number ∨ a.Moves none)
    (h : e.act a = .ok (e', entry)) : (e'.recorder none).Elsewhere number := by
  by_cases hmoves : a.Moves none
  · obtain ⟨op, rfl, hboundary⟩ := moves_canonical hmoves
    obtain ⟨s, hs, rfl, -⟩ := act_perform_ok h
    rw [Recorder.perform_enabled henabled] at hs
    rw [recorder_take, Function.update_self]
    apply Recorder.elsewhere_record hboundary _ hs
    rintro block rfl
    exact hother block rfl
  · have hblock := block_act hmoves h
    have haway := haway.resolve_right hmoves
    rwa [Recorder.Elsewhere, Recorder.blockNumber, hblock]

theorem elsewhere_run (henabled : (e.recorder none).enabled = true)
    (hother : ∀ block, .perform none (.startBlock block) ∈ acts → number ≠ some block.number)
    (haway : (e.recorder none).Elsewhere number ∨ ∃ a ∈ acts, a.Moves none)
    (hrun : e.run acts = .ok (e', j)) : (e'.recorder none).Elsewhere number := by
  induction acts generalizing e j with
  | nil =>
    obtain ⟨rfl, rfl⟩ := Prod.mk.inj (Except.ok.inj hrun)
    simpa using haway
  | cons a acts ih =>
    obtain ⟨e₁, entry, rest, ha, hrest, rfl⟩ := run_cons.mp hrun
    have hfirst : ∀ block, a = .perform none (.startBlock block) → number ≠ some block.number := by
      rintro block rfl
      exact hother block List.mem_cons_self
    have hlater : ∀ block, .perform none (.startBlock block) ∈ acts →
        number ≠ some block.number := by
      intro block hblock
      exact hother block (List.mem_cons_of_mem _ hblock)
    apply ih ((enabled_act ha none).trans henabled) hlater _ hrest
    -- either some later act leaves the block, or the canonical tracer is elsewhere by now
    by_cases hmoves : ∃ a ∈ acts, a.Moves none
    · exact .inr hmoves
    · refine .inl (elsewhere_act henabled hfirst ?_ ha)
      rcases haway with haway | ⟨b, hb, hmovesb⟩
      · exact .inl haway
      · rcases List.mem_cons.mp hb with rfl | hb
        · exact .inr hmovesb
        · exact absurd ⟨b, hb, hmovesb⟩ hmoves

theorem act_flushTransaction (e : Ensemble ι) {receiver : Option ι} (other : receiver ≠ some k) :
    e.act (.flushTransaction receiver k other) =
      ((e.recorder receiver).flushTransaction (e.drafts k)) >>= fun y =>
        .ok ((e.put k y.2).take receiver y.1, ⟨receiver, y.1.trace⟩) := rfl

/-- A draft that still holds the block it was lent can be flushed just when its transaction has
ended and the canonical tracer is in a block of the same number. If no block that was started in
the meantime has this number, then a flush that is accepted finds the lent block itself; once that
was ended or cancelled, every flush stops with a fault. -/
theorem flush_finds_lent_block {tx : Transaction} {index : UInt64} {baseFee : Option Word}
    (hcanonical : (e.recorder none).enabled = true)
    (hdraft : (e.recorder (some k)).enabled = true)
    (hlend : e.act (.start none k (canonical_ne _) tx index baseFee) = .ok (e₁, entry))
    (hsince : e₁.run since = .ok (e₂, j)) (hheld : ∀ a ∈ since, ¬ a.Moves (some k)) :
    ((∃ done, e₂.act (.flushTransaction none k (canonical_ne _)) = .ok done) ↔
        (e₂.recorder none).block ≠ none ∧ (e₂.recorder (some k)).inTransaction = false ∧
          (e₂.recorder none).blockNumber = (e.recorder none).blockNumber) ∧
      ((∀ block, .perform none (.startBlock block) ∈ since →
          (e.recorder none).blockNumber ≠ some block.number) →
        ((∃ done, e₂.act (.flushTransaction none k (canonical_ne _)) = .ok done) →
          ∀ block, .perform none (.startBlock block) ∉ since) ∧
        ∀ op, op.isBoundary = true → .perform none op ∈ since →
          ∃ f, e₂.act (.flushTransaction none k (canonical_ne _)) = .error f ∧
            (f = ⟨.outsideBlock, e₂.recorder none⟩ ∨
              f = ⟨.openTransaction, e₂.recorder (some k)⟩ ∨
              f = ⟨.otherBlock, e₂.recorder (some k)⟩)) := by
  have hon₁ : (e₁.recorder none).enabled = true := (enabled_act hlend none).trans hcanonical
  have hon₂ : (e₂.recorder none).enabled = true := (enabled_run hsince none).trans hon₁
  -- the draft keeps the number of the lent block, whatever the canonical tracer goes on to
  have hlent : (e₂.drafts k).recorder.block = some ⟨(e.recorder none).blockNumber⟩ :=
    (block_run hheld hsince).trans (lend_ok hdraft hlend)
  have hnumber : (e₂.drafts k).recorder.blockNumber = (e.recorder none).blockNumber := by
    rw [Recorder.blockNumber, hlent]
    rfl
  have hreturns : (∃ done, e₂.act (.flushTransaction none k (canonical_ne _)) = .ok done) ↔
      (e₂.recorder none).block ≠ none ∧ (e₂.recorder (some k)).inTransaction = false ∧
        (e₂.recorder none).blockNumber = (e.recorder none).blockNumber := by
    have hflush := Recorder.flushTransaction_returns (d := e₂.drafts k) hon₂ (by simp [hlent])
    rw [hnumber, @eq_comm _ (e.recorder none).blockNumber] at hflush
    rw [act_flushTransaction]
    exact exists_bind_ok.trans hflush
  refine ⟨hreturns, fun hother => ?_⟩
  have hstops (op : Operation) (hboundary : op.isBoundary = true)
      (hop : .perform none op ∈ since) :
      ¬ ∃ done, e₂.act (.flushTransaction none k (canonical_ne _)) = .ok done := by
    rw [hreturns]
    rintro ⟨hblock, -, hsame⟩
    have haway := elsewhere_run hon₁ hother (.inr ⟨_, hop, rfl, hboundary⟩) hsince
    rcases haway with hnone | hdiffers
    · exact hblock hnone
    · exact hdiffers hsame
  refine ⟨fun hdone block hblock => hstops _ rfl hblock hdone, fun op hboundary hop => ?_⟩
  cases hresult : e₂.act (.flushTransaction none k (canonical_ne _)) with
  | ok done => exact absurd ⟨done, hresult⟩ (hstops op hboundary hop)
  | error f =>
    refine ⟨f, rfl, ?_⟩
    rw [act_flushTransaction] at hresult
    rcases bind_eq_error.mp hresult with hfault | ⟨_, _, hfault⟩
    · exact Recorder.flushTransaction_error hon₂ hfault
    · cases hfault

/-- In block 7. -/
def inBlockSample : Ensemble Bool := { sample with canonical := Desk.sampleTracer false }

/-- The draft has ended its transaction, and the canonical tracer has gone on to another block. -/
def wentOn (number : UInt64) : List (Act Bool) :=
  [.perform (some false) (.failTransaction "bad nonce"),
   .perform none (.cancelBlock (Consumer.plainBlock 7) "reorg"),
   .perform none (.startBlock (Consumer.plainBlock number))]

theorem flush_finds_lent_block_eight :
    ∃ e₁ entry e₂ j, inBlockSample.act (startSample false) = .ok (e₁, entry) ∧
      e₁.run (wentOn 8) = .ok (e₂, j) ∧ (∀ a ∈ wentOn 8, ¬ a.Moves (some false)) ∧
      (∀ block, .perform none (.startBlock block) ∈ wentOn 8 →
        (inBlockSample.recorder none).blockNumber ≠ some block.number) ∧
      ∃ f, e₂.act (.flushTransaction none false (canonical_ne _)) = .error f := by
  have hheld : ∀ a ∈ wentOn 8, ¬ a.Moves (some false) := by
    simp [wentOn, Act.Moves, Operation.isBoundary]
  have hother : ∀ block, .perform none (.startBlock block) ∈ wentOn 8 →
      (inBlockSample.recorder none).blockNumber ≠ some block.number := by
    simp only [wentOn, List.mem_cons, Act.perform.injEq, Operation.startBlock.injEq]
    rintro block (⟨⟨⟩, -⟩ | ⟨-, ⟨⟩⟩ | ⟨-, rfl⟩ | ⟨⟨⟩⟩)
    decide
  have hcancelled : Act.perform none (.cancelBlock (Consumer.plainBlock 7) "reorg") ∈ wentOn 8 := by
    simp [wentOn]
  obtain ⟨f, hf, -⟩ :=
    ((flush_finds_lent_block rfl rfl rfl rfl hheld).2 hother).2 _ rfl hcancelled
  exact ⟨_, _, _, _, rfl, rfl, hheld, hother, f, hf⟩

/-- The replay of the lent block is taken for the lent block. -/
theorem replayed_block_takes_flush :
    ∃ e₁ entry e₂ j done, inBlockSample.act (startSample false) = .ok (e₁, entry) ∧
      e₁.run (wentOn 7) = .ok (e₂, j) ∧ (∀ a ∈ wentOn 7, ¬ a.Moves (some false)) ∧
      e₂.act (.flushTransaction none false (canonical_ne _)) = .ok done := by
  refine ⟨_, _, _, _, _, rfl, rfl, ?_, rfl⟩
  simp [wentOn, Act.Moves, Operation.isBoundary]

end Ensemble
end EvmTrace
