import EvmTrace.Proofs.Operations
import EvmTrace.Proofs.Readers

/-!
# Consumers

A consumer reads a trace event by event and follows the blocks, transactions and calls it tells of.
It refuses an event that has no place where it stands. The recorder never gives it one to refuse,
and what it knows after each operation is all that the recorder itself keeps.
-/
namespace EvmTrace

structure Consumer where
  /-- The number of the open block. -/
  block : Option UInt64
  /-- The number that the next log has to have. -/
  nextLog : Nat
  inTransaction : Bool
  calls : CallStack
  deriving DecidableEq, Repr

namespace Consumer

def start : Consumer := ⟨none, 0, false, .empty⟩

/-- Whether the event has a place where the consumer stands. -/
def accepts (c : Consumer) : Event → Bool
  | .announcement .. => true
  | .blockStart _ => c.block.isNone && c.calls.isEmpty
  | .blockFinal _ => c.block.isSome && c.calls.isEmpty
  | .blockEnd .. => c.block.isSome && !c.inTransaction && c.calls.isEmpty
  | .blockCancel .. => c.block.isSome
  | .transactionStart _ => c.block.isSome && !c.inTransaction && c.calls.isEmpty
  | .sender _ => c.inTransaction
  | .transactionEnd _ => c.inTransaction && c.calls.isEmpty
  | .transactionFailure _ => c.inTransaction
  | .callStart _ call => call == c.calls.opened + 1
  | .callParams _ call .. | .callWithoutCode call | .callFailure call .. | .callRevert call
  | .callEnd call .. => c.calls.calls.head? == some call
  | .gasChange call .. | .balanceChange call .. | .nonceChange call .. | .codeChange call ..
  | .storageChange call .. | .newAccount call _ | .suicide call .. | .keccak call .. =>
    call == c.calls.active
  | .log call index _ => call == c.calls.active && index == c.nextLog

/-- Where an event leads. The end of a transaction, whichever way, drops its calls, and the
cancellation of a block drops its transaction as well. -/
def after (c : Consumer) : Event → Consumer
  | .blockStart number => { c with block := some number, nextLog := 0 }
  | .blockEnd .. => { c with block := none, nextLog := 0 }
  | .blockCancel .. => start
  | .transactionStart _ => { c with inTransaction := true, calls := .empty }
  | .transactionEnd _ | .transactionFailure _ =>
    { c with inTransaction := false, calls := .empty }
  | .callStart _ call => { c with calls := ⟨call, call :: c.calls.calls⟩ }
  | .callEnd .. => { c with calls := { c.calls with calls := c.calls.calls.tail } }
  | .log .. => { c with nextLog := c.nextLog + 1 }
  | _ => c

/-- Where it stands beside a recorder, the number of the block excepted. -/
def beside (r : Recorder) (lent : Bool) : Consumer :=
  ⟨if lent || r.inBlock then some 0 else none, r.nextLog, r.inTransaction, r.calls⟩

@[simps] def reader : Reader Consumer := ⟨accepts, after, beside⟩

abbrev readAll (c : Consumer) (t : Trace) : Option Consumer := reader.readAll c t

/-- The recorder that the consumer takes to be behind the trace. -/
def recorder (c : Consumer) (progress : Bool) : Recorder :=
  ⟨true, progress, c.block.map fun number => ⟨some number⟩, c.nextLog, c.inTransaction, c.calls⟩

variable {c d : Consumer} {progress : Bool} {s : Step}

@[simp] theorem blockNumber_recorder : (c.recorder progress).blockNumber = c.block := by
  cases h : c.block <;> simp [recorder, Recorder.blockNumber, h]

@[simp] theorem inBlock_recorder : (c.recorder progress).inBlock = c.block.isSome := by
  simp [recorder, Recorder.inBlock]

@[simp] theorem activeCall_recorder : (c.recorder progress).activeCall = c.calls.active := rfl

theorem isNone_of_block (h : (c.recorder progress).block = none) : c.block.isNone = true := by
  simpa [recorder] using h

theorem isSome_of_block (h : (c.recorder progress).block ≠ none) : c.block.isSome = true := by
  simpa [recorder, Option.isSome_iff_ne_none] using h

theorem isEmpty_of_calls (h : (c.recorder progress).calls.calls = []) :
    c.calls.isEmpty = true := (CallStack.isEmpty_iff _).mpr h

/-- The innermost call, where there is one. -/
theorem head?_of_calls (h : (c.recorder progress).calls.calls ≠ []) :
    c.calls.calls.head? = some c.calls.active := by
  obtain ⟨call, outer, hcalls⟩ := List.exists_cons_of_ne_nil h
  have hcons : c.calls.calls = call :: outer := hcalls
  simp [CallStack.active, hcons]

/-! ## One operation -/

/-- What the step puts out takes the consumer to where the recorder then is. -/
structure Follows (c : Consumer) (progress : Bool) (s : Step) (d : Consumer) : Prop where
  read : c.readAll s.trace = some d
  recorder : s.recorder = d.recorder progress

theorem follows_idle : c.Follows progress (.idle (c.recorder progress)) c := ⟨rfl, rfl⟩

theorem follows_line {r : Recorder} {e : Event} (h : c.accepts e = true)
    (hr : r = (c.after e).recorder progress) : c.Follows progress (.line r e) (c.after e) :=
  ⟨Reader.readAll_singleton h, hr⟩

theorem follows_noted {r : Recorder} {n : Diagnostic} {e : Event} (h : c.accepts e = true)
    (hr : r = (c.after e).recorder progress) : c.Follows progress (.noted r n e) (c.after e) :=
  ⟨Reader.readAll_singleton h, hr⟩

theorem Follows.followedBy {t : Step} {e : Consumer} (hs : c.Follows progress s d)
    (ht : d.Follows progress t e) : c.Follows progress (s.followedBy t) e := by
  refine ⟨?_, ht.recorder⟩
  rw [Step.trace_followedBy]
  exact Reader.readAll_append_eq_some.mpr ⟨d, hs.read, ht.read⟩

/-- A call that failed is told by its failure, its revert or the burning of its gas, and its end,
all under its own number. -/
theorem follows_failedCall {call : Nat} {outer : List Nat} (hcalls : c.calls.calls = call :: outer)
    (gasLeft : UInt64) (isRevert : Bool) (reason : String) :
    c.Follows progress ((c.recorder progress).failedCall call outer gasLeft isRevert reason)
      { c with calls := { c.calls with calls := outer } } := by
  have hfailure : c.Follows progress
      (.line (c.recorder progress) (.callFailure call gasLeft reason)) c :=
    follows_line (by simp [accepts, hcalls]) rfl
  have hafter (g : UInt64) : c.after (.callEnd call g []) =
      { c with calls := { c.calls with calls := outer } } := by
    simp [after, hcalls]
  have hend (g : UInt64) : c.Follows progress
      (.noted { c.recorder progress with calls := { c.calls with calls := outer } }
        (.callEnded call g) (.callEnd call g []))
      { c with calls := { c.calls with calls := outer } } :=
    ⟨(Reader.readAll_singleton (R := reader) (by simp [accepts, hcalls])).trans
      (congrArg some (hafter g)), rfl⟩
  cases isRevert with
  | true =>
    have hrevert : c.Follows progress (.line (c.recorder progress) (.callRevert call)) c :=
      follows_line (by simp [accepts, hcalls]) rfl
    exact (hfailure.followedBy hrevert).followedBy (hend gasLeft)
  | false =>
    refine (hfailure.followedBy ?_).followedBy (hend 0)
    split
    · exact follows_idle
    · exact follows_noted (by simp [accepts, CallStack.active, hcalls]) rfl

theorem follows_record {op : Operation} (h : (c.recorder progress).record op = .ok s) :
    ∃ d, c.Follows progress s d := by
  cases op with
  | announce node protocol chain =>
    obtain rfl := Except.ok.inj h
    exact ⟨_, follows_line rfl rfl⟩
  | startBlock block =>
    obtain ⟨hblock, hcalls, rfl⟩ := Recorder.startBlock_eq_ok.mp h
    have haccepts : c.accepts (.blockStart block.number) = true := by
      simp [accepts, isNone_of_block hblock, isEmpty_of_calls hcalls]
    exact ⟨_, follows_noted haccepts rfl⟩
  | finalizeBlock block =>
    obtain ⟨hblock, hcalls, rfl⟩ := Recorder.finalizeBlock_eq_ok.mp h
    exact ⟨_, follows_line (by simp [accepts, isSome_of_block hblock, isEmpty_of_calls hcalls]) rfl⟩
  | endBlock block totalDifficulty =>
    obtain ⟨hblock, houtside, hcalls, rfl⟩ := Recorder.endBlock_eq_ok.mp h
    have hidle : c.inTransaction = false := houtside
    refine ⟨_, follows_noted ?_ rfl⟩
    simp [accepts, isSome_of_block hblock, hidle, isEmpty_of_calls hcalls]
  | cancelBlock block reason =>
    obtain ⟨hblock, rfl⟩ := Recorder.cancelBlock_eq_ok.mp h
    exact ⟨_, follows_noted (isSome_of_block hblock) rfl⟩
  | startTransaction tx index baseFee =>
    obtain ⟨hblock, houtside, hcalls, rfl⟩ := Recorder.startTransaction_eq_ok.mp h
    have hidle : c.inTransaction = false := houtside
    refine ⟨_, follows_noted ?_ rfl⟩
    simp [accepts, isSome_of_block hblock, hidle, isEmpty_of_calls hcalls]
  | sender address =>
    obtain ⟨hinside, rfl⟩ := Recorder.sender_eq_ok.mp h
    exact ⟨_, follows_line hinside rfl⟩
  | failTransaction reason =>
    obtain ⟨hinside, rfl⟩ := Recorder.failTransaction_eq_ok.mp h
    exact ⟨_, follows_noted hinside rfl⟩
  | endTransaction receipt =>
    obtain ⟨hinside, hcalls, rfl⟩ := Recorder.endTransaction_eq_ok.mp h
    have hopen : c.inTransaction = true := hinside
    have haccepts : c.accepts (.transactionEnd receipt) = true := by
      simp [accepts, hopen, isEmpty_of_calls hcalls]
    exact ⟨c.after (.transactionEnd receipt), Reader.readAll_singleton haccepts, rfl⟩
  | startCall type =>
    obtain rfl := Except.ok.inj h
    have haccepts : c.accepts (.callStart type (c.calls.opened + 1)) = true := by simp [accepts]
    exact ⟨c.after (.callStart type _), Reader.readAll_singleton haccepts, rfl⟩
  | callParams type caller target value gas input =>
    obtain ⟨hcalls, rfl⟩ := Recorder.callParams_eq_ok.mp h
    exact ⟨_, follows_line (by simp [accepts, head?_of_calls hcalls]) rfl⟩
  | callWithoutCode =>
    obtain ⟨hcalls, rfl⟩ := Recorder.callWithoutCode_eq_ok.mp h
    exact ⟨_, follows_line (by simp [accepts, head?_of_calls hcalls]) rfl⟩
  | callFailed gasLeft reason =>
    obtain ⟨hcalls, rfl⟩ := Recorder.callFailed_eq_ok.mp h
    exact ⟨_, follows_line (by simp [accepts, head?_of_calls hcalls]) rfl⟩
  | callReverted =>
    obtain ⟨hcalls, rfl⟩ := Recorder.callReverted_eq_ok.mp h
    exact ⟨_, follows_line (by simp [accepts, head?_of_calls hcalls]) rfl⟩
  | endCall gasLeft returned =>
    obtain ⟨call, outer, hcalls, rfl⟩ := Recorder.endCall_eq_ok.mp h
    have hopen : c.calls.calls = call :: outer := hcalls
    exact ⟨_, follows_noted (by simp [accepts, hopen]) (by simp [recorder, after, hopen])⟩
  | endFailedCall gasLeft isRevert reason =>
    obtain ⟨call, outer, hcalls, rfl⟩ := Recorder.endFailedCall_eq_ok.mp h
    exact ⟨_, follows_failedCall hcalls ..⟩
  | consumeGas old amount reason =>
    rcases Recorder.consumeGas_eq_ok.mp h with ⟨_, rfl⟩ | ⟨_, _, _, rfl⟩
    · exact ⟨_, follows_idle⟩
    · exact ⟨_, follows_noted (by simp [accepts]) rfl⟩
  | refundGas old amount =>
    obtain rfl := Except.ok.inj h
    unfold Recorder.refundGas
    split
    · exact ⟨_, follows_idle⟩
    · exact ⟨_, follows_line (by simp [accepts]) rfl⟩
  | changeBalance address old new reason =>
    obtain rfl := Except.ok.inj h
    unfold Recorder.changeBalance
    split
    · exact ⟨_, follows_idle⟩
    · exact ⟨_, follows_noted (by simp [accepts]) rfl⟩
  | changeNonce address old new =>
    obtain rfl := Except.ok.inj h
    exact ⟨_, follows_line (by simp [accepts]) rfl⟩
  | changeCode address oldHash old newHash new =>
    obtain rfl := Except.ok.inj h
    exact ⟨_, follows_line (by simp [accepts]) rfl⟩
  | changeStorage address key old new =>
    obtain rfl := Except.ok.inj h
    exact ⟨_, follows_line (by simp [accepts]) rfl⟩
  | createAccount address =>
    obtain rfl := Except.ok.inj h
    exact ⟨_, follows_line (by simp [accepts]) rfl⟩
  | suicide address suicided balance =>
    obtain rfl := Except.ok.inj h
    exact ⟨_, follows_line (by simp [accepts]) rfl⟩
  | keccak hash preimage =>
    obtain rfl := Except.ok.inj h
    exact ⟨_, follows_noted (by simp [accepts]) rfl⟩
  | log l =>
    obtain rfl := Except.ok.inj h
    exact ⟨_, follows_line (e := .log c.calls.active c.nextLog l) (by simp [accepts]) rfl⟩

/-! ## Runs -/

theorem follows_run {ops : List Operation} (h : (c.recorder progress).run ops = .ok s) :
    ∃ d, c.Follows progress s d := by
  induction ops generalizing c s with
  | nil =>
    obtain rfl := Except.ok.inj h
    exact ⟨c, follows_idle⟩
  | cons op ops ih =>
    obtain ⟨t, u, ht, hu, rfl⟩ := Recorder.run_cons.mp h
    rw [Recorder.perform_enabled rfl] at ht
    obtain ⟨d, hd⟩ := follows_record ht
    rw [hd.recorder] at hu
    obtain ⟨e, he⟩ := ih hu
    exact ⟨e, hd.followedBy he⟩

/-- After every operation of a run, the events put out so far are all in place and lead the consumer
to the recorder itself: to its block, its transaction and its open calls, and to everything else
that the recorder goes by. -/
theorem trace_determines_recorder (progress : Bool) (ops : List Operation) (s : Step)
    (h : (Recorder.fresh true progress).run ops = .ok s) :
    (∀ done, done <+: ops → ∃ t c, (Recorder.fresh true progress).run done = .ok t ∧
      t.trace <+: s.trace ∧ start.readAll t.trace = some c ∧
      c.block.isSome = t.recorder.inBlock ∧ c.block = t.recorder.blockNumber ∧
      c.inTransaction = t.recorder.inTransaction ∧
      c.calls.calls = t.recorder.calls.calls ∧ t.recorder = c.recorder progress) ∧
    ∀ before e rest, s.trace = before ++ e :: rest →
      ∃ c, start.readAll before = some c ∧ c.accepts e = true := by
  constructor
  · rintro done ⟨rest, rfl⟩
    obtain ⟨t, u, ht, _, rfl⟩ := Recorder.run_append.mp h
    obtain ⟨c, hc⟩ := follows_run (c := start) ht
    refine ⟨t, c, ht, ⟨u.trace, (Step.trace_followedBy t u).symm⟩, hc.read, ?_⟩
    rw [hc.recorder]
    exact ⟨inBlock_recorder.symm, blockNumber_recorder.symm, rfl, rfl, rfl⟩
  · intro before e rest htrace
    obtain ⟨c, hc⟩ := follows_run (c := start) h
    have hread := hc.read
    rw [htrace] at hread
    obtain ⟨b, hb, haccepts, -⟩ := Reader.readAll_append_cons.mp hread
    exact ⟨b, hb, haccepts⟩

/-- A block with nothing but a number. -/
def plainBlock (number : UInt64) : Block :=
  .ofHeader
    { parentHash := .replicate 32 0, uncleHash := .replicate 32 0, coinbase := .replicate 20 0,
      root := .replicate 32 0, transactionRoot := .replicate 32 0,
      receiptRoot := .replicate 32 0, bloom := .replicate 256 0, difficulty := 0,
      number := number, gasLimit := 0, gasUsed := 0, time := 0, extra := [],
      mixDigest := .replicate 32 0, nonce := 0, baseFee := none, hash := .replicate 32 0 }

def plainTransaction : Transaction := .legacy (.replicate 32 0) none 0 21000 1 0 []

/-- A call that failed inside another, both in a transaction whose block is cancelled. -/
def cancelledRun : List Operation :=
  [.startBlock (plainBlock 7), .startTransaction plainTransaction 0 none, .startCall .call,
   .startCall .create, .endFailedCall 5 false "out of gas",
   .log ⟨.replicate 20 0, [.replicate 32 1], [2]⟩, .cancelBlock (plainBlock 7) "reorg"]

theorem trace_determines_recorder_cancelled :
    ∃ s, (Recorder.fresh true false).run cancelledRun = .ok s ∧
      ∃ t c, (Recorder.fresh true false).run (cancelledRun.take 6) = .ok t ∧
        t.trace <+: s.trace ∧ start.readAll t.trace = some c ∧
        c.block.isSome = t.recorder.inBlock ∧ c.block = t.recorder.blockNumber ∧
        c.inTransaction = t.recorder.inTransaction ∧
        c.calls.calls = t.recorder.calls.calls ∧ t.recorder = c.recorder false :=
  ⟨_, rfl, (trace_determines_recorder false cancelledRun _ rfl).1 _ (List.take_prefix _ _)⟩

end Consumer
end EvmTrace
