import EvmTrace.Proofs.Consumer
import EvmTrace.Proofs.Frames

/-!
# Consumers beside recorders

A consumer that stands where a recorder does can read all that the recorder puts out next, whatever
was put out before and whatever the number of the block is. This also holds of a recorder to which
a block is only lent, as long as it starts and leaves no block itself.
-/
namespace EvmTrace

/-- Starts, ends or cancels a block. -/
def Operation.isBoundary : Operation → Bool
  | .startBlock _ | .endBlock .. | .cancelBlock .. => true
  | _ => false

namespace Recorder
variable {r : Recorder} {s : Step} {op : Operation}

theorem StaysInBlock.block (h : r.StaysInBlock s) : s.recorder.block = r.block := by
  obtain ⟨n, i, c, h⟩ := h
  rw [h]

/-- Only a boundary moves a recorder from one block to another. -/
theorem block_record (hop : op.isBoundary = false) (h : r.record op = .ok s) :
    s.recorder.block = r.block := by
  by_cases htransactional : op.isTransactional = true
  · obtain ⟨_, _, hsame⟩ := record_transactional htransactional (.refl r) h
    exact hsame.left.block
  · cases op with
    | announce node protocol chain =>
      obtain rfl := Except.ok.inj h
      rfl
    | finalizeBlock block =>
      obtain ⟨-, -, rfl⟩ := finalizeBlock_eq_ok.mp h
      rfl
    | startTransaction tx index baseFee =>
      obtain ⟨-, -, -, rfl⟩ := startTransaction_eq_ok.mp h
      rfl
    | _ => simp_all [Operation.isTransactional, Operation.isBoundary]

/-- No operation switches a recorder on or off. -/
theorem enabled_perform (h : r.perform op = .ok s) : s.recorder.enabled = r.enabled := by
  cases henabled : r.enabled with
  | false =>
    rw [perform_disabled r op henabled] at h
    obtain rfl := Except.ok.inj h
    rw [recorder_ignore, henabled]
  | true =>
    rw [perform_enabled henabled] at h
    by_cases htransactional : op.isTransactional = true
    · obtain ⟨_, _, hsame⟩ := record_transactional htransactional (.refl r) h
      exact hsame.left.enabled.trans henabled
    · cases op with
      | announce node protocol chain =>
        obtain rfl := Except.ok.inj h
        exact henabled
      | startBlock block =>
        obtain ⟨-, -, rfl⟩ := startBlock_eq_ok.mp h
        exact henabled
      | finalizeBlock block =>
        obtain ⟨-, -, rfl⟩ := finalizeBlock_eq_ok.mp h
        exact henabled
      | endBlock block totalDifficulty =>
        obtain ⟨-, -, -, rfl⟩ := endBlock_eq_ok.mp h
        exact henabled
      | cancelBlock block reason =>
        obtain ⟨-, rfl⟩ := cancelBlock_eq_ok.mp h
        exact henabled
      | startTransaction tx index baseFee =>
        obtain ⟨-, -, -, rfl⟩ := startTransaction_eq_ok.mp h
        exact henabled
      | _ => exact absurd rfl htransactional

theorem block_perform (hop : op.isBoundary = false) (h : r.perform op = .ok s) :
    s.recorder.block = r.block := by
  cases henabled : r.enabled with
  | false =>
    rw [perform_disabled r op henabled] at h
    obtain rfl := Except.ok.inj h
    rw [recorder_ignore]
  | true =>
    rw [perform_enabled henabled] at h
    exact block_record hop h

/-- A recorder that is disabled announces final blocks at most. -/
theorem trace_ignore (r : Recorder) (op : Operation) :
    (r.ignore op).trace = [] ∨ ∃ number, (r.ignore op).trace = [.blockFinal number] := by
  cases op with
  | finalizeBlock block =>
    cases hprogress : r.progress with
    | false => exact .inl (by simp [ignore, hprogress])
    | true => exact .inr ⟨block.number, by simp [ignore, hprogress]⟩
  | _ => exact .inl rfl

end Recorder

namespace Consumer

/-- Stands where the recorder does, and is in a block in any case if the block is lent. -/
structure Matches (c : Consumer) (r : Recorder) (lent : Bool) : Prop where
  inBlock : c.block.isSome = (lent || r.inBlock)
  nextLog : c.nextLog = r.nextLog
  inTransaction : c.inTransaction = r.inTransaction
  calls : c.calls = r.calls

theorem matches_beside (r : Recorder) (lent : Bool) : (beside r lent).Matches r lent where
  inBlock := by
    unfold beside
    cases lent || r.inBlock <;> rfl
  nextLog := rfl
  inTransaction := rfl
  calls := rfl

variable {c : Consumer} {r : Recorder} {s : Step} {op : Operation} {lent : Bool}

theorem Matches.agrees (hc : c.Matches r lent) (henabled : r.enabled = true) :
    r.Agrees (c.recorder r.progress) where
  enabled := henabled.symm
  inTransaction := hc.inTransaction
  calls := hc.calls

theorem reads_line {r' : Recorder} {e : Event} (haccepts : c.accepts e = true)
    (hafter : (c.after e).Matches r' lent) :
    ∃ d, c.readAll [e] = some d ∧ d.Matches r' lent :=
  ⟨_, Reader.readAll_singleton haccepts, hafter⟩

/-- What a recorder puts out in one operation is read by a consumer that stands where it does, and
leads it to where the recorder then stands. The number of the block does not matter. -/
theorem reads_record (hc : c.Matches r lent) (henabled : r.enabled = true)
    (hop : lent = true → op.isBoundary = false) (h : r.record op = .ok s) :
    ∃ d, c.readAll s.trace = some d ∧ d.Matches s.recorder lent := by
  by_cases htransactional : op.isTransactional = true
  · obtain ⟨t, ht, hsame⟩ :=
      Recorder.record_transactional htransactional (hc.agrees henabled) h
    obtain ⟨d, hd⟩ := follows_record ht
    obtain ⟨htrace, hnext⟩ := hsame.same hc.nextLog
    have hblock : d.block.isSome = c.block.isSome := by
      have hstays := hsame.right.block
      rw [hd.recorder] at hstays
      simpa [recorder] using congrArg Option.isSome hstays
    have hinside : s.recorder.inBlock = r.inBlock := by
      rw [Recorder.inBlock, hsame.left.block, Recorder.inBlock]
    rw [hd.recorder] at hnext
    have hagrees := hsame.agrees
    rw [hd.recorder] at hagrees
    refine ⟨d, htrace ▸ hd.read, ⟨?_, hnext, hagrees.inTransaction, hagrees.calls⟩⟩
    rw [hblock, hc.inBlock, hinside]
  · have hempty (hcalls : r.calls.calls = []) : c.calls.isEmpty = true := by
      rw [hc.calls, CallStack.isEmpty_iff, hcalls]
    have hinside (hblock : r.block ≠ none) : c.block.isSome = true := by
      rw [hc.inBlock, Recorder.inBlock_iff.mpr hblock, Bool.or_true]
    have hown (hboundary : op.isBoundary = true) : lent = false := by
      cases lent with
      | false => rfl
      | true => rw [hop rfl] at hboundary; cases hboundary
    cases op with
    | announce node protocol chain =>
      obtain rfl := Except.ok.inj h
      exact reads_line (e := .announcement protocol chain node) rfl hc
    | startBlock block =>
      obtain ⟨hblock, hcalls, rfl⟩ := Recorder.startBlock_eq_ok.mp h
      have houtside : c.block.isNone = true := by
        simpa [hown rfl, Recorder.inBlock, hblock] using hc.inBlock
      have haccepts : c.accepts (.blockStart block.number) = true := by
        simp [accepts, houtside, hempty hcalls]
      exact reads_line haccepts
        ⟨by simp [after, Recorder.inBlock], rfl, hc.inTransaction, hc.calls⟩
    | finalizeBlock block =>
      obtain ⟨hblock, hcalls, rfl⟩ := Recorder.finalizeBlock_eq_ok.mp h
      have haccepts : c.accepts (.blockFinal block.number) = true := by
        simp [accepts, hinside hblock, hempty hcalls]
      exact reads_line haccepts hc
    | endBlock block totalDifficulty =>
      obtain ⟨hblock, houtside, hcalls, rfl⟩ := Recorder.endBlock_eq_ok.mp h
      have haccepts : c.accepts (.blockEnd block totalDifficulty) = true := by
        simp [accepts, hinside hblock, hc.inTransaction, houtside, hempty hcalls]
      exact reads_line haccepts ⟨by rw [hown rfl]; rfl, rfl, hc.inTransaction, hc.calls⟩
    | cancelBlock block reason =>
      obtain ⟨hblock, rfl⟩ := Recorder.cancelBlock_eq_ok.mp h
      have haccepts : c.accepts (.blockCancel block.number reason) = true := hinside hblock
      exact reads_line haccepts ⟨by rw [hown rfl]; rfl, rfl, rfl, rfl⟩
    | startTransaction tx index baseFee =>
      obtain ⟨hblock, houtside, hcalls, rfl⟩ := Recorder.startTransaction_eq_ok.mp h
      have haccepts : c.accepts (.transactionStart (.ofTransaction tx index baseFee)) = true := by
        simp [accepts, hinside hblock, hc.inTransaction, houtside, hempty hcalls]
      exact reads_line haccepts ⟨hc.inBlock, hc.nextLog, rfl, rfl⟩
    | _ => exact absurd rfl htransactional

/-! ## Readers that follow less -/

/-- A reader that follows a part of what consumers follow, the number of the block excepted, and
that takes no notice of final blocks. -/
structure Shows {σ : Type} (R : Reader σ) (part : Consumer → σ) : Prop where
  reads : ∀ c e, c.accepts e = true →
    R.accepts (part c) e = true ∧ R.after (part c) e = part (c.after e)
  skips : ∀ a number, R.accepts a (.blockFinal number) = true ∧ R.after a (.blockFinal number) = a
  same : ∀ c r lent, c.Matches r lent → part c = R.beside r lent

variable {σ : Type} {R : Reader σ} {part : Consumer → σ}

theorem Shows.ignore (h : Shows R part) (a : σ) (r : Recorder) (op : Operation) :
    R.readAll a (r.ignore op).trace = some a := by
  rcases r.trace_ignore op with htrace | ⟨number, htrace⟩
  · rw [htrace, Reader.readAll_nil]
  · obtain ⟨haccepts, hafter⟩ := h.skips a number
    rw [htrace, Reader.readAll_singleton haccepts, hafter]

/-- Such a reader follows each operation of a recorder, be it on or off. -/
theorem Shows.perform (h : Shows R part) (hop : lent = true → op.isBoundary = false)
    (hs : r.perform op = .ok s) :
    R.readAll (R.beside r lent) s.trace = some (R.beside s.recorder lent) := by
  cases henabled : r.enabled with
  | false =>
    rw [Recorder.perform_disabled r op henabled] at hs
    obtain rfl := Except.ok.inj hs
    rw [Recorder.recorder_ignore]
    exact h.ignore ..
  | true =>
    rw [Recorder.perform_enabled henabled] at hs
    obtain ⟨d, hread, hd⟩ := reads_record (matches_beside r lent) henabled hop hs
    rw [← h.same _ r lent (matches_beside r lent), ← h.same d s.recorder lent hd]
    exact Reader.readAll_map part h.reads hread

end Consumer
end EvmTrace
