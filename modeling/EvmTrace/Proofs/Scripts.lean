import EvmTrace.Proofs.Ensemble

/-!
# Scripts of a node

What a node is to do with a canonical tracer and drafts is laid down as a grammar of blocks,
transactions and calls. No script of the grammar, however long or deeply nested, ends in a fault.
-/
namespace EvmTrace

/-! ## The grammar -/

/-- Consumes no more gas than there is. -/
def Operation.IsCovered : Operation → Prop
  | .consumeGas old amount _ => amount ≤ old
  | _ => True

/-- Tells about the innermost open call. -/
def Operation.isCallNote : Operation → Bool
  | .callParams .. | .callWithoutCode | .callFailed .. | .callReverted => true
  | _ => false

def Operation.isCallEnd : Operation → Bool
  | .endCall .. | .endFailedCall .. => true
  | _ => false

namespace Script

structure Change where
  op : Operation
  isChange : op.isChange = true
  isCovered : op.IsCovered

/-- What is recorded in a transaction, or inside one of its calls. -/
inductive Body : (inCall : Bool) → Type
  | done {inCall : Bool} : Body inCall
  | change {inCall : Bool} (change : Change) (rest : Body inCall) : Body inCall
  | sender {inCall : Bool} (address : Address) (rest : Body inCall) : Body inCall
  | note (op : Operation) (isCallNote : op.isCallNote = true) (rest : Body true) : Body true
  | call {inCall : Bool} (type : CallType) (inner : Body true) (ending : Operation)
      (isCallEnd : ending.isCallEnd = true) (rest : Body inCall) : Body inCall

def Body.operations {inCall : Bool} : Body inCall → List Operation
  | done => []
  | change c rest => c.op :: rest.operations
  | sender address rest => .sender address :: rest.operations
  | note op _ rest => op :: rest.operations
  | call type inner ending _ rest =>
    .startCall type :: (inner.operations ++ ending :: rest.operations)

/-- A transaction that is ended or fails as a whole. -/
structure Settled where
  tx : Transaction
  index : UInt64
  baseFee : Option Word
  body : Body false
  fate : Fate
  isCommitted : fate.isCommitted = true

def Settled.execution (t : Settled) : Execution :=
  ⟨t.tx, t.index, t.baseFee, t.body.operations, t.fate⟩

variable {ι : Type}

/-- What is done between the start and the end of a block. -/
inductive Item (ι : Type)
  | change (change : Change)
  | inline (t : Settled)
  /-- Recorded in a draft that is flushed at the end. -/
  | kept (k : ι) (t : Settled)
  /-- Recorded in a draft that is abandoned after so many operations. -/
  | abandoned (k : ι) (t : Settled) (n : Nat)

def Settled.startIn (t : Settled) (k : ι) : Ensemble.Act ι :=
  .start none k (Ensemble.canonical_ne k) t.tx t.index t.baseFee

def Item.acts : Item ι → List (Ensemble.Act ι)
  | change c => [.perform none c.op]
  | inline t => (t.execution.start :: t.execution.script).map (.perform none)
  | kept k t =>
    t.startIn k :: (t.execution.script.map (.perform (some k)) ++
      [.flushTransaction none k (Ensemble.canonical_ne k)])
  | abandoned k t n =>
    t.startIn k :: ((t.execution.script.take n).map (.perform (some k)) ++ [.abandon k])

inductive BlockClosing
  | ended (block : Block) (totalDifficulty : Option Word)
  | cancelled (block : Block) (reason : String)

def BlockClosing.op : BlockClosing → Operation
  | ended block totalDifficulty => .endBlock block totalDifficulty
  | cancelled block reason => .cancelBlock block reason

structure BlockScript (ι : Type) where
  block : Block
  items : List (Item ι)
  /-- The block that is announced as final, if one is. -/
  final : Option Block
  closing : BlockClosing

def BlockScript.acts (b : BlockScript ι) : List (Ensemble.Act ι) :=
  .perform none (.startBlock b.block) :: (b.items.flatMap Item.acts ++
    (b.final.toList.map Operation.finalizeBlock ++ [b.closing.op]).map (.perform none))

end Script

/-! ## One recorder -/

namespace Recorder

/-- A step that is done with all calls it opened and leaves the others alone. -/
def StaysInCalls (r : Recorder) (s : Step) : Prop :=
  ∃ n o, s.recorder = { r with nextLog := n, calls := ⟨o, r.calls.calls⟩ }

variable {r : Recorder} {s t : Step} {op : Operation}

theorem StaysInCalls.enabled (h : r.StaysInCalls s) : s.recorder.enabled = r.enabled := by
  obtain ⟨n, o, h⟩ := h
  rw [h]

theorem StaysInCalls.inTransaction (h : r.StaysInCalls s) :
    s.recorder.inTransaction = r.inTransaction := by
  obtain ⟨n, o, h⟩ := h
  rw [h]

theorem StaysInCalls.calls (h : r.StaysInCalls s) :
    s.recorder.calls.calls = r.calls.calls := by
  obtain ⟨n, o, h⟩ := h
  rw [h]

theorem StaysInCalls.followedBy (hs : r.StaysInCalls s) (ht : s.recorder.StaysInCalls t) :
    r.StaysInCalls (s.followedBy t) := by
  obtain ⟨n, o, hs⟩ := hs
  obtain ⟨n', o', ht⟩ := ht
  refine ⟨n', o', ?_⟩
  rw [Step.recorder_followedBy, ht, hs]

/-- Whatever is going on, a change of the state goes through if the gas suffices. -/
theorem record_covered (hchange : op.isChange = true) (hcovered : op.IsCovered) (r : Recorder) :
    ∃ s, r.record op = .ok s ∧ s.recorder = { r with nextLog := s.recorder.nextLog } := by
  have htaken : ∃ s, r.record op = .ok s := by
    cases op with
    | consumeGas old amount reason =>
      by_cases hskip : reason = .ignored ∨ amount = 0
      · exact ⟨_, consumeGas_eq_ok.mpr (.inl ⟨hskip, rfl⟩)⟩
      · obtain ⟨hreason, hamount⟩ := not_or.mp hskip
        exact ⟨_, consumeGas_eq_ok.mpr (.inr ⟨hreason, hamount, hcovered, rfl⟩)⟩
    | refundGas | changeBalance | changeNonce | changeCode | changeStorage | createAccount
    | suicide | keccak | log => exact ⟨_, rfl⟩
    | _ => cases hchange
  obtain ⟨s, hs⟩ := htaken
  obtain ⟨_, -, hsame⟩ := record_change hchange hs r
  exact ⟨s, hs, hsame.left⟩

theorem record_callNote (hnote : op.isCallNote = true) (hcalls : r.calls.calls ≠ []) :
    ∃ s, r.record op = .ok s ∧ s.recorder = r := by
  cases op with
  | callParams type caller target value gas input =>
    exact ⟨_, callParams_eq_ok.mpr ⟨hcalls, rfl⟩, rfl⟩
  | callWithoutCode => exact ⟨_, callWithoutCode_eq_ok.mpr ⟨hcalls, rfl⟩, rfl⟩
  | callFailed gasLeft reason => exact ⟨_, callFailed_eq_ok.mpr ⟨hcalls, rfl⟩, rfl⟩
  | callReverted => exact ⟨_, callReverted_eq_ok.mpr ⟨hcalls, rfl⟩, rfl⟩
  | _ => cases hnote

theorem record_callEnd {call : Nat} {outer : List Nat} (hend : op.isCallEnd = true)
    (hcalls : r.calls.calls = call :: outer) :
    ∃ s, r.record op = .ok s ∧
      s.recorder = { r with calls := { r.calls with calls := outer } } := by
  cases op with
  | endCall gasLeft returned =>
    exact ⟨_, endCall_eq_ok.mpr ⟨call, outer, hcalls, rfl⟩, rfl⟩
  | endFailedCall gasLeft isRevert reason =>
    refine ⟨_, endFailedCall_of_open hcalls gasLeft isRevert reason, ?_⟩
    rw [failedCall_eq]
  | _ => cases hend

theorem run_record (hon : r.enabled = true) (hs : r.record op = .ok s) :
    r.run [op] = .ok (s.followedBy (.idle s.recorder)) :=
  run_singleton.mpr ⟨s, (perform_enabled hon op).trans hs, rfl⟩

theorem run_staysInCalls {ops : List Operation} (hon : r.enabled = true)
    (hs : r.record op = .ok s) (hstays : r.StaysInCalls s)
    (hrest : ∃ t, s.recorder.run ops = .ok t ∧ s.recorder.StaysInCalls t) :
    ∃ t, r.run (op :: ops) = .ok t ∧ r.StaysInCalls t := by
  obtain ⟨t, ht, hstays'⟩ := hrest
  exact ⟨_, run_cons.mpr ⟨s, t, (perform_enabled hon op).trans hs, ht, rfl⟩,
    hstays.followedBy hstays'⟩

end Recorder

namespace Script

variable {r : Recorder}

/-- All of a body is taken, and it closes what it opens. -/
theorem Body.run_operations {inCall : Bool} (b : Body inCall) (hon : r.enabled = true)
    (hin : r.inTransaction = true) (hcalls : inCall = true → r.calls.calls ≠ []) :
    ∃ s, r.run b.operations = .ok s ∧ r.StaysInCalls s := by
  induction b generalizing r with
  | done => exact ⟨_, rfl, _, _, rfl⟩
  | change c rest ih =>
    obtain ⟨s, hs, hkeeps⟩ := Recorder.record_covered c.isChange c.isCovered r
    have hstays : r.StaysInCalls s := ⟨_, r.calls.opened, hkeeps⟩
    refine Recorder.run_staysInCalls hon hs hstays (ih ?_ ?_ ?_)
    · rw [hstays.enabled, hon]
    · rw [hstays.inTransaction, hin]
    · rwa [hstays.calls]
  | sender address rest ih =>
    have hs : r.record (.sender address) = .ok _ := Recorder.sender_eq_ok.mpr ⟨hin, rfl⟩
    exact Recorder.run_staysInCalls hon hs ⟨_, _, rfl⟩ (ih hon hin hcalls)
  | note op hnote rest ih =>
    obtain ⟨s, hs, hkeeps⟩ := Recorder.record_callNote hnote (hcalls rfl)
    refine Recorder.run_staysInCalls hon hs ⟨_, _, hkeeps⟩ ?_
    rw [hkeeps]
    exact ih hon hin hcalls
  | call type inner ending hend rest ihInner ihRest =>
    have hstart : r.perform (.startCall type) = .ok (r.startCall type) :=
      Recorder.perform_enabled hon _
    obtain ⟨s, hs, hinner⟩ :=
      ihInner (r := (r.startCall type).recorder) hon hin fun _ => List.cons_ne_nil _ _
    -- the call that was started is the innermost one again when its body is done
    obtain ⟨u, hu, hpopped⟩ := Recorder.record_callEnd hend hinner.calls
    have hon' : s.recorder.enabled = true := hinner.enabled.trans hon
    have hstays : r.StaysInCalls u := by
      obtain ⟨n, o, hkeeps⟩ := hinner
      refine ⟨n, o, ?_⟩
      rw [hpopped, hkeeps]
      rfl
    obtain ⟨t, ht, hrest⟩ := ihRest (r := u.recorder) (by rw [hstays.enabled, hon])
      (by rw [hstays.inTransaction, hin]) (by rwa [hstays.calls])
    have hending := (Recorder.perform_enabled hon' ending).trans hu
    refine ⟨_, Recorder.run_cons.mpr ⟨_, _, hstart, Recorder.run_append.mpr
      ⟨s, _, hs, Recorder.run_cons.mpr ⟨u, t, hending, ht, rfl⟩, rfl⟩, rfl⟩, ?_⟩
    exact hstays.followedBy hrest

theorem Settled.run_script (t : Settled) (hon : r.enabled = true) :
    ∃ s n, r.enterTransaction.run t.execution.script = .ok s ∧
      s.recorder = { r.leaveTransaction with nextLog := n } := by
  obtain ⟨s, hs, hstays⟩ := t.body.run_operations (r := r.enterTransaction) hon rfl
    fun hcall => by cases hcall
  have hon' : s.recorder.enabled = true := hstays.enabled.trans hon
  have hclosing : ∃ u, s.recorder.run t.fate.closing = .ok u := by
    have hin : s.recorder.inTransaction = true := hstays.inTransaction
    have hcalls : s.recorder.calls.calls = [] := hstays.calls
    cases hfate : t.fate with
    | ended receipt =>
      exact ⟨_, Recorder.run_record hon' (Recorder.endTransaction_eq_ok.mpr ⟨hin, hcalls, rfl⟩)⟩
    | failed reason =>
      exact ⟨_, Recorder.run_record hon' (Recorder.failTransaction_eq_ok.mpr ⟨hin, rfl⟩)⟩
    | abandoned => exact absurd t.isCommitted (by simp [hfate, Fate.isCommitted])
  obtain ⟨u, hu⟩ := hclosing
  refine ⟨_, s.recorder.nextLog, Recorder.run_append.mpr ⟨s, u, hs, hu, rfl⟩, ?_⟩
  have hleft := Execution.run_closing (x := t.execution) t.isCommitted hon' hu
  obtain ⟨n, o, hkeeps⟩ := hstays
  rw [Step.recorder_followedBy, hleft, hkeeps]
  rfl

end Script

/-! ## All members -/

/-- On, and out of all transactions and calls. -/
structure Recorder.Rests (r : Recorder) : Prop where
  enabled : r.enabled = true
  inTransaction : r.inTransaction = false
  calls : r.calls.calls = []

theorem Recorder.Rests.run_closing {r : Recorder} (h : r.Rests) (hblock : r.inBlock = true)
    (final : Option Block) (closing : Script.BlockClosing) :
    ∃ s, r.run (final.toList.map .finalizeBlock ++ [closing.op]) = .ok s ∧
      s.recorder.Rests ∧ s.recorder.inBlock = false := by
  obtain ⟨hon, houtside, hcalls⟩ := h
  have hin : r.block ≠ none := Recorder.inBlock_iff.mp hblock
  have hclosing : ∃ s, r.run [closing.op] = .ok s ∧ s.recorder.Rests ∧
      s.recorder.inBlock = false := by
    cases closing with
    | ended block totalDifficulty =>
      exact ⟨_, Recorder.run_record hon (Recorder.endBlock_eq_ok.mpr ⟨hin, houtside, hcalls, rfl⟩),
        ⟨hon, houtside, hcalls⟩, rfl⟩
    | cancelled block reason =>
      exact ⟨_, Recorder.run_record hon (Recorder.cancelBlock_eq_ok.mpr ⟨hin, rfl⟩),
        ⟨hon, rfl, rfl⟩, rfl⟩
  cases final with
  | none => exact hclosing
  | some block =>
    obtain ⟨s, hs, hleft⟩ := hclosing
    have hfinal : r.perform (.finalizeBlock block) = .ok _ :=
      (Recorder.perform_enabled hon _).trans
        (Recorder.finalizeBlock_eq_ok.mpr ⟨hin, hcalls, rfl⟩)
    exact ⟨_, Recorder.run_cons.mpr ⟨_, s, hfinal, hs, rfl⟩, hleft⟩

namespace Ensemble

variable {ι : Type} [DecidableEq ι] {e e' : Ensemble ι} {m : Option ι} {inBlock inBlock' : Bool}

theorem drafts_take {k : ι} (hk : some k ≠ m) (e : Ensemble ι) (s : Step) :
    (e.take m s).drafts k = e.drafts k := by
  cases m with
  | none => rfl
  | some i =>
    have hi : k ≠ i := fun h => hk (congrArg some h)
    simp [take, put, hi]

/-- What the recorder of a member takes in a run, the member takes. -/
theorem run_performs {ops : List Operation} {s : Step} (h : (e.recorder m).run ops = .ok s) :
    ∃ e' j, e.run (ops.map (.perform m)) = .ok (e', j) ∧
      e'.recorder = Function.update e.recorder m s.recorder ∧
      ∀ k, some k ≠ m → e'.drafts k = e.drafts k := by
  induction ops generalizing e s with
  | nil =>
    obtain rfl := Except.ok.inj h
    exact ⟨e, [], rfl, (Function.update_eq_self m e.recorder).symm, fun _ _ => rfl⟩
  | cons op ops ih =>
    obtain ⟨first, rest, hfirst, hrest, rfl⟩ := Recorder.run_cons.mp h
    have hact : e.act (.perform m op) = .ok (e.take m first, ⟨m, first.trace⟩) :=
      bind_eq_ok.mpr ⟨first, hfirst, rfl⟩
    have hrecorder : (e.take m first).recorder m = first.recorder := by
      rw [recorder_take, Function.update_self]
    rw [← hrecorder] at hrest
    obtain ⟨e', j, hrun, hupdate, hdrafts⟩ := ih hrest
    refine ⟨e', _, run_cons.mpr ⟨_, _, j, hact, hrun, rfl⟩, ?_, fun k hk => ?_⟩
    · rw [hupdate, recorder_take, Function.update_idem]
      rfl
    · rw [hdrafts k hk, drafts_take hk]

/-- Nothing is under way except, where it is said, the block of the canonical tracer. -/
structure AtRest (e : Ensemble ι) (inBlock : Bool) : Prop where
  rests : ∀ m, (e.recorder m).Rests
  canonical : (e.recorder none).inBlock = inBlock
  drafts : ∀ k, Vacant (e.drafts k)

omit [DecidableEq ι] in
theorem AtRest.replace (h : e.AtRest inBlock) (hrests : (e'.recorder none).Rests)
    (hblock : (e'.recorder none).inBlock = inBlock')
    (hdrafts : ∀ k, e'.drafts k = e.drafts k ∨
      (e'.drafts k).recorder.Rests ∧ Vacant (e'.drafts k)) : e'.AtRest inBlock' where
  rests m := by
    cases m with
    | none => exact hrests
    | some k =>
      rcases hdrafts k with hsame | ⟨hrests, -⟩
      · have hk := h.rests (some k)
        rwa [recorder, ← hsame] at hk
      · exact hrests
  canonical := hblock
  drafts k := by
    rcases hdrafts k with hsame | ⟨-, hvacant⟩
    · rw [hsame]
      exact h.drafts k
    · exact hvacant

theorem AtRest.records {ops : List Operation} {s : Step} (h : e.AtRest inBlock)
    (hrun : (e.recorder none).run ops = .ok s) (hrests : s.recorder.Rests)
    (hblock : s.recorder.inBlock = inBlock') :
    ∃ e' j, e.run (ops.map (.perform none)) = .ok (e', j) ∧ e'.AtRest inBlock' := by
  obtain ⟨e', j, hrun', hrecorder, hdrafts⟩ := run_performs hrun
  have hcanonical : e'.recorder none = s.recorder := by rw [hrecorder, Function.update_self]
  refine ⟨e', j, hrun', h.replace ?_ ?_ fun k => .inl (hdrafts k (Option.some_ne_none k))⟩
  · rwa [hcanonical]
  · rwa [hcanonical]

open Script

/-- A draft at rest takes the start of a transaction, and what a recorder takes behind it. -/
theorem AtRest.tries {ops : List Operation} {s : Step} (h : e.AtRest true) (t : Settled) (k : ι)
    (hs : ((e.recorder none).lend (e.recorder (some k))).enterTransaction.run ops = .ok s) :
    ∃ e' j, e.run (t.startIn k :: ops.map (.perform (some k))) = .ok (e', j) ∧
      e'.recorder (some k) = s.recorder ∧ e'.recorder none = e.recorder none ∧
      ∀ i, i ≠ k → e'.drafts i = e.drafts i := by
  obtain ⟨hon, houtside, hcalls⟩ := h.rests (some k)
  have hstart : ∃ d notes, (e.recorder none).startSpeculative (e.drafts k) t.tx t.index t.baseFee =
      .ok (d, notes) ∧
        d.recorder = ((e.recorder none).lend (e.recorder (some k))).enterTransaction :=
    ⟨_, _, Recorder.startSpeculative_eq (fun _ => h.canonical) hon (h.drafts k).block houtside
      hcalls t.execution, rfl⟩
  obtain ⟨d, notes, hd, hrecorder⟩ := hstart
  have hact : e.act (t.startIn k) = .ok _ := bind_eq_ok.mpr ⟨(d, notes), hd, rfl⟩
  have hput : (e.put k d).recorder (some k) =
      ((e.recorder none).lend (e.recorder (some k))).enterTransaction := by
    rw [recorder_put, Function.update_self, hrecorder]
  rw [← hput] at hs
  obtain ⟨e', j, hrun, hupdate, hdrafts⟩ := run_performs hs
  refine ⟨e', _, run_cons.mpr ⟨_, _, j, hact, hrun, rfl⟩, ?_, ?_, fun i hi => ?_⟩
  · rw [hupdate, Function.update_self]
  · rw [hupdate, Function.update_of_ne (canonical_ne k), recorder_put,
      Function.update_of_ne (canonical_ne k)]
  · rw [hdrafts i fun hik => hi (Option.some.inj hik)]
    simp [put, hi]

theorem AtRest.kept (h : e.AtRest true) (t : Settled) (k : ι) :
    ∃ e' j, e.run (Item.kept k t).acts = .ok (e', j) ∧ e'.AtRest true := by
  let lent := (e.recorder none).lend (e.recorder (some k))
  obtain ⟨s, n, hs, hkeeps⟩ := t.run_script (r := lent) (h.rests (some k)).enabled
  obtain ⟨e₂, j, hrun, hdraft, hcanonical, hothers⟩ := h.tries t k hs
  rw [hkeeps] at hdraft
  -- the transaction is over, and its block is that of the receiver
  have hflush : (e₂.recorder none).flushTransaction (e₂.drafts k) = .ok _ :=
    Recorder.flushTransaction_eq (by rw [hcanonical]; exact (h.rests none).enabled)
      (by rw [hcanonical]; exact h.canonical)
      (congrArg Recorder.inTransaction hdraft)
      ((congrArg Recorder.block hdraft).trans (by rw [hcanonical]; rfl))
  have hact : e₂.act (.flushTransaction none k (canonical_ne k)) = .ok _ :=
    bind_eq_ok.mpr ⟨_, hflush, rfl⟩
  refine ⟨_, _, run_concat.mpr ⟨e₂, j, _, hrun, hact, rfl⟩, h.replace ?_ ?_ fun i => ?_⟩
  · rw [recorder_take, Function.update_self, hcanonical]
    exact ⟨(h.rests none).enabled, (h.rests none).inTransaction, (h.rests none).calls⟩
  · rw [recorder_take, Function.update_self, hcanonical]
    exact h.canonical
  · rw [drafts_take (Option.some_ne_none i)]
    by_cases hi : i = k
    · subst hi
      refine .inr ?_
      simp only [put, Function.update_self]
      rw [show (e₂.drafts i).recorder = _ from hdraft]
      exact ⟨⟨(h.rests (some i)).enabled, rfl, rfl⟩, rfl, rfl⟩
    · refine .inl ?_
      rw [← hothers i hi]
      simp [put, hi]

theorem AtRest.abandoned (h : e.AtRest true) (t : Settled) (k : ι) (n : Nat) :
    ∃ e' j, e.run (Item.abandoned k t n).acts = .ok (e', j) ∧ e'.AtRest true := by
  let lent := (e.recorder none).lend (e.recorder (some k))
  obtain ⟨s, -, hs, -⟩ := t.run_script (r := lent) (h.rests (some k)).enabled
  rw [← List.take_append_drop n t.execution.script] at hs
  obtain ⟨u, -, hu, -, -⟩ := Recorder.run_append.mp hs
  obtain ⟨e₂, j, hrun, hdraft, hcanonical, hothers⟩ := h.tries t k hu
  have hon : (e₂.recorder (some k)).enabled = true :=
    (enabled_run hrun (some k)).trans (h.rests (some k)).enabled
  refine ⟨_, _, run_concat.mpr ⟨e₂, j, _, hrun, rfl, rfl⟩, h.replace ?_ ?_ fun i => ?_⟩
  · rw [recorder_put, Function.update_of_ne (canonical_ne k), hcanonical]
    exact h.rests none
  · rw [recorder_put, Function.update_of_ne (canonical_ne k), hcanonical]
    exact h.canonical
  · by_cases hi : i = k
    · subst hi
      refine .inr ?_
      simp only [put, Function.update_self]
      exact ⟨⟨hon, rfl, rfl⟩, rfl, rfl⟩
    · refine .inl ?_
      rw [← hothers i hi]
      simp [put, hi]

theorem AtRest.item (h : e.AtRest true) (item : Item ι) :
    ∃ e' j, e.run item.acts = .ok (e', j) ∧ e'.AtRest true := by
  obtain ⟨hon, houtside, hcalls⟩ := h.rests none
  cases item with
  | change c =>
    obtain ⟨s, hs, hkeeps⟩ := Recorder.record_covered c.isChange c.isCovered (e.recorder none)
    refine h.records (Recorder.run_record hon hs) ?_ ?_
    · rw [Step.recorder_followedBy, Step.recorder_idle, hkeeps]
      exact ⟨hon, houtside, hcalls⟩
    · rw [Step.recorder_followedBy, Step.recorder_idle, hkeeps]
      exact h.canonical
  | inline t =>
    obtain ⟨s, n, hs, hkeeps⟩ := t.run_script (r := e.recorder none) hon
    have hstart := t.execution.perform_start hon (Recorder.inBlock_iff.mp h.canonical) houtside
      hcalls
    refine h.records (Recorder.run_cons.mpr ⟨_, s, hstart, hs, rfl⟩) ?_ ?_
    · rw [Step.recorder_followedBy, hkeeps]
      exact ⟨hon, rfl, rfl⟩
    · rw [Step.recorder_followedBy, hkeeps]
      exact h.canonical
  | kept k t => exact h.kept t k
  | abandoned k t n => exact h.abandoned t k n

/-- What keeps the members at rest keeps them so again and again. -/
theorem AtRest.forall {α : Type} {acts : α → List (Act ι)}
    (hone : ∀ (e : Ensemble ι) x, e.AtRest inBlock →
      ∃ e' j, e.run (acts x) = .ok (e', j) ∧ e'.AtRest inBlock)
    (h : e.AtRest inBlock) (xs : List α) :
    ∃ e' j, e.run (xs.flatMap acts) = .ok (e', j) ∧ e'.AtRest inBlock := by
  induction xs generalizing e with
  | nil => exact ⟨e, [], rfl, h⟩
  | cons x xs ih =>
    obtain ⟨e₁, j₁, hfirst, h₁⟩ := hone e x h
    obtain ⟨e', j, hrest, h'⟩ := ih h₁
    exact ⟨e', _, run_append.mpr ⟨e₁, j₁, j, hfirst, hrest, rfl⟩, h'⟩

theorem AtRest.block (h : e.AtRest false) (b : BlockScript ι) :
    ∃ e' j, e.run b.acts = .ok (e', j) ∧ e'.AtRest false := by
  obtain ⟨hon, houtside, hcalls⟩ := h.rests none
  have hblock : (e.recorder none).block = none := by
    simpa [Recorder.inBlock] using h.canonical
  have hstart : (e.recorder none).record (.startBlock b.block) = .ok _ :=
    Recorder.startBlock_eq_ok.mpr ⟨hblock, hcalls, rfl⟩
  have hstarted : ∃ e₁ j₁, e.run [.perform none (.startBlock b.block)] = .ok (e₁, j₁) ∧
      e₁.AtRest true :=
    h.records (Recorder.run_record hon hstart) ⟨hon, houtside, hcalls⟩ rfl
  obtain ⟨e₁, j₁, hrun₁, h₁⟩ := hstarted
  obtain ⟨e₂, j₂, hrun₂, h₂⟩ := h₁.forall (fun _ item h => h.item item) b.items
  obtain ⟨s, hs, hrests, hleft⟩ := (h₂.rests none).run_closing h₂.canonical b.final b.closing
  obtain ⟨e₃, j₃, hrun₃, h₃⟩ := h₂.records hs hrests hleft
  exact ⟨e₃, _, run_append.mpr ⟨e₁, j₁, _, hrun₁,
    run_append.mpr ⟨e₂, j₂, j₃, hrun₂, hrun₃, rfl⟩, rfl⟩, h₃⟩

/-- A node that keeps to the grammar meets no fault, however it nests its calls, gives up its drafts
and cancels its blocks, and it ends with all members at rest. -/
theorem scripts_never_fault (h : e.AtRest false) (session : List (BlockScript ι)) :
    ∃ e' j, e.run (session.flatMap BlockScript.acts) = .ok (e', j) ∧ e'.AtRest false :=
  h.forall (fun _ b h => h.block b) session

theorem atRest_sample : sample.AtRest false := by
  refine ⟨fun m => ?_, rfl, fun _ => ⟨rfl, rfl⟩⟩
  cases m <;> exact ⟨rfl, rfl, rfl⟩

/-- A call whose inner call fails behind a log. -/
def nestedBody : Body false :=
  .call .call
    (.note .callWithoutCode rfl <|
      .call .create (.change ⟨.log ⟨.replicate 20 0, [], [1]⟩, rfl, trivial⟩ .done)
        (.endFailedCall 5 false "out of gas") rfl <|
      .change ⟨.consumeGas 9 9 .call, rfl, UInt64.le_refl 9⟩ .done)
    (.endCall 0 []) rfl .done

def sampleSettled : Settled :=
  ⟨Consumer.plainTransaction, 0, none, nestedBody, .failed "bad nonce", rfl⟩

/-- Two drafts are used in a block, one of them is given up between two calls and used again, and
the next block is cancelled. -/
def sampleSession : List (BlockScript Bool) :=
  [⟨Consumer.plainBlock 7, [.inline sampleSettled, .abandoned true sampleSettled 3,
      .kept false sampleSettled, .kept true sampleSettled],
    some (Consumer.plainBlock 1), .ended (Consumer.plainBlock 7) none⟩,
   ⟨Consumer.plainBlock 8, [.kept true sampleSettled], none,
    .cancelled (Consumer.plainBlock 8) "reorg"⟩]

theorem scripts_never_fault_sample :
    sample.AtRest false ∧
      ∃ e' j, sample.run (sampleSession.flatMap BlockScript.acts) = .ok (e', j) ∧
        e'.AtRest false :=
  ⟨atRest_sample, scripts_never_fault atRest_sample sampleSession⟩

end Ensemble
end EvmTrace
