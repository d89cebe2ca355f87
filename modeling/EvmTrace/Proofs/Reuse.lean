import EvmTrace.Proofs.Ensemble

/-!
# Reused drafts

A draft records one piece of work after another in the same buffer. A receiver that is on takes all
lines of a draft that is flushed into it, so that the buffer never holds more than what was recorded
since it was emptied last. A receiver that is off leaves the lines where they are.
-/
namespace EvmTrace
namespace Ensemble

variable {ι : Type} [DecidableEq ι]

/-- Hands the lines of the draft on, or drops them. -/
def Act.Empties (k : ι) : Act ι → Prop
  | .flushTransaction _ k' _ | .flushBlock _ k' _ | .abandon k' => k' = k
  | _ => False

/-- Flushes the draft, if at all, into a member that is on. -/
def Act.IsReceived (e : Ensemble ι) (k : ι) : Act ι → Prop
  | .flushTransaction receiver k' _ | .flushBlock receiver k' _ =>
    k' = k → (e.recorder receiver).enabled = true
  | _ => True

def Act.startsIn (k : ι) : Act ι → Bool
  | .start _ k' .. => decide (k' = k)
  | _ => false

variable {e e₁ e' : Ensemble ι} {k : ι} {a : Act ι} {acts since : List (Act ι)} {j : Journal ι}
  {entry : Entry ι}

theorem trace_act (hkeeps : ¬ a.Empties k) (h : e.act a = .ok (e', entry)) :
    (e'.drafts k).trace = (e.drafts k).trace ++ entry.of (some k) := by
  -- all lines of a draft are put out by itself or flushed into it
  have htake (e : Ensemble ι) (m : Option ι) (s : Step) {lines : Trace} (hs : s.trace = lines) :
      ((e.take m s).drafts k).trace = (e.drafts k).trace ++ Entry.of ⟨m, lines⟩ (some k) :=
    hs ▸ lines_take e [] m (some k) s
  have hput {k' : ι} (d : Draft) (hk : ¬ k' = k) : (e.put k' d).drafts k = e.drafts k := by
    simp [put, Ne.symm hk]
  cases a with
  | perform m op =>
    obtain ⟨s, -, rfl, rfl⟩ := act_perform_ok h
    exact htake e m s rfl
  | start lender k' other tx index baseFee =>
    obtain ⟨-, s, rfl, rfl, -⟩ := act_start_ok h
    exact htake e (some k') s rfl
  | flushTransaction receiver k' other =>
    rcases act_flushTransaction_ok h with ⟨-, rfl, rfl⟩ | ⟨-, -, -, -, rfl, rfl⟩
    · rw [hput _ hkeeps, Entry.of_nil, List.append_nil]
    · rw [htake _ receiver _ (Recorder.trace_receive ..), hput _ hkeeps]
  | flushBlock receiver k' other =>
    rcases act_flushBlock_ok h with ⟨-, rfl, rfl⟩ | ⟨-, -, rfl, rfl⟩
    · rw [Entry.of_nil, List.append_nil]
    · rw [htake _ receiver _ (Recorder.trace_receiveBlock ..), hput _ hkeeps]
  | abandon k' =>
    obtain ⟨rfl, rfl⟩ := Prod.mk.inj (Except.ok.inj h)
    rw [hput _ hkeeps, Entry.of_nil, List.append_nil]

theorem trace_run (hkeeps : ∀ a ∈ acts, ¬ a.Empties k) (hrun : e.run acts = .ok (e', j)) :
    (e'.drafts k).trace = (e.drafts k).trace ++ j.of (some k) := by
  induction acts generalizing e j with
  | nil =>
    obtain ⟨rfl, rfl⟩ := Prod.mk.inj (Except.ok.inj hrun)
    simp
  | cons a acts ih =>
    obtain ⟨e₁, entry, rest, ha, hrest, rfl⟩ := run_cons.mp hrun
    obtain ⟨hfirst, hlater⟩ := List.forall_mem_cons.mp hkeeps
    rw [ih hlater hrest, trace_act hfirst ha, Journal.of_cons, List.append_assoc]

theorem trace_of_empties (hempties : a.Empties k) (hreceived : a.IsReceived e k)
    (h : e.act a = .ok (e', entry)) : (e'.drafts k).trace = [] := by
  have htake {receiver : Option ι} (other : receiver ≠ some k) (d : Draft) (s : Step)
      (hd : d.trace = []) : (((e.put k d).take receiver s).drafts k).trace = [] := by
    have hlines := lines_take (e.put k d) [] receiver (some k) s
    simpa [lines, put, Entry.of, other, hd] using hlines
  cases a with
  | flushTransaction receiver k' other =>
    obtain rfl : k' = k := hempties
    rcases act_flushTransaction_ok h with ⟨hoff, -⟩ | ⟨-, -, -, -, rfl, -⟩
    · cases (hreceived rfl).symm.trans hoff
    · exact htake other _ _ rfl
  | flushBlock receiver k' other =>
    obtain rfl : k' = k := hempties
    rcases act_flushBlock_ok h with ⟨hoff, -⟩ | ⟨-, -, rfl, -⟩
    · cases (hreceived rfl).symm.trans hoff
    · exact htake other _ _ rfl
  | abandon k' =>
    obtain rfl : k' = k := hempties
    obtain ⟨rfl, -⟩ := Prod.mk.inj (Except.ok.inj h)
    simp [put, Draft.abandon]
  | _ => exact absurd hempties id

omit [DecidableEq ι] in
/-- Every run falls in two: up to the act that emptied the draft last, and since then. -/
theorem exists_since_emptied (k : ι) (acts : List (Act ι)) :
    ∃ done since, acts = done ++ since ∧ (∀ a ∈ since, ¬ a.Empties k) ∧
      ∀ a ∈ done.getLast?, a.Empties k := by
  induction acts with
  | nil => exact ⟨[], [], rfl, by simp, by simp⟩
  | cons a acts ih =>
    obtain ⟨done, since, rfl, hsince, hdone⟩ := ih
    cases done with
    | cons b done => exact ⟨a :: b :: done, since, rfl, hsince, by simpa using hdone⟩
    | nil =>
      by_cases ha : a.Empties k
      · exact ⟨[a], since, rfl, hsince, by simpa using ha⟩
      · exact ⟨[], a :: since, rfl, List.forall_mem_cons.mpr ⟨ha, hsince⟩, by simp⟩

/-- While a draft holds a block, no other is lent to it. -/
theorem startsIn_of_held (henabled : (e.recorder (some k)).enabled = true)
    (hblock : (e.recorder (some k)).block ≠ none) (hkeeps : ∀ a ∈ acts, ¬ a.Empties k)
    (hown : ∀ op, .perform (some k) op ∈ acts → op.isBoundary = false)
    (hrun : e.run acts = .ok (e', j)) : ∀ a ∈ acts, a.startsIn k = false := by
  induction acts generalizing e j with
  | nil => simp
  | cons a acts ih =>
    obtain ⟨e₁, entry, rest, ha, hrest, rfl⟩ := run_cons.mp hrun
    obtain ⟨hfirst, hlater⟩ := List.forall_mem_cons.mp hkeeps
    have hstarts : a.startsIn k = false := by
      by_contra hstarts
      cases a with
      | start lender k' other tx index baseFee =>
        obtain rfl : k' = k := by simpa [Act.startsIn] using hstarts
        obtain ⟨-, s, -, -, ⟨hoff, -⟩ | ⟨-, hfree, -⟩⟩ := act_start_ok ha
        · cases henabled.symm.trans hoff
        · exact hblock hfree
      | _ => exact hstarts rfl
    have hstays : ¬ a.Moves (some k) := by
      cases a with
      | perform m op =>
        rintro ⟨rfl, hboundary⟩
        cases (hown op List.mem_cons_self).symm.trans hboundary
      | start lender k' other tx index baseFee =>
        intro hk
        simp [Act.startsIn, Option.some.inj hk] at hstarts
      | flushBlock => exact id
      | flushTransaction => exact fun hk => hfirst (Option.some.inj hk)
      | abandon => exact fun hk => hfirst (Option.some.inj hk)
    refine List.forall_mem_cons.mpr ⟨hstarts, ih ?_ ?_ hlater ?_ hrest⟩
    · exact (enabled_act ha _).trans henabled
    · rwa [block_act hstays ha]
    · exact fun op hop => hown op (List.mem_cons_of_mem _ hop)

theorem count_starts (henabled : (e.recorder (some k)).enabled = true)
    (hkeeps : ∀ a ∈ acts, ¬ a.Empties k)
    (hown : ∀ op, .perform (some k) op ∈ acts → op.isBoundary = false)
    (hrun : e.run acts = .ok (e', j)) : acts.countP (·.startsIn k) ≤ 1 := by
  induction acts generalizing e j with
  | nil => exact Nat.zero_le 1
  | cons a acts ih =>
    obtain ⟨e₁, entry, rest, ha, hrest, rfl⟩ := run_cons.mp hrun
    obtain ⟨-, hlater⟩ := List.forall_mem_cons.mp hkeeps
    have hownLater : ∀ op, .perform (some k) op ∈ acts → op.isBoundary = false :=
      fun op hop => hown op (List.mem_cons_of_mem _ hop)
    have henabled₁ : (e₁.recorder (some k)).enabled = true := (enabled_act ha _).trans henabled
    rw [List.countP_cons]
    cases hstarts : a.startsIn k with
    | false => simpa using ih henabled₁ hlater hownLater hrest
    | true =>
      have hblock : (e₁.recorder (some k)).block ≠ none := by
        cases a with
        | start lender k' other tx index baseFee =>
          obtain rfl : k' = k := by simpa [Act.startsIn] using hstarts
          rw [lend_ok henabled ha]
          exact Option.some_ne_none _
        | _ => cases hstarts
      have hnone := startsIn_of_held henabled₁ hblock hlater hownLater hrest
      have hcount : acts.countP (·.startsIn k) = 0 :=
        List.countP_eq_zero.mpr fun a ha => by simp [hnone a ha]
      simp [hcount]

theorem isReceived_run (hreceived : a.IsReceived e k) (hrun : e.run acts = .ok (e₁, j)) :
    a.IsReceived e₁ k := by
  cases a with
  | flushTransaction receiver k' other =>
    exact fun hk => (enabled_run hrun receiver).trans (hreceived hk)
  | flushBlock receiver k' other =>
    exact fun hk => (enabled_run hrun receiver).trans (hreceived hk)
  | _ => trivial

theorem recorder_flushed {receiver : Option ι} {other : receiver ≠ some k}
    (h : e.act (.flushTransaction receiver k other) = .ok (e', entry)) :
    e'.recorder (some k) = (e.recorder (some k)).leaveBlock ∧
      ((e.recorder receiver).enabled = true →
        (e.recorder (some k)).inTransaction = false) := by
  rcases act_flushTransaction_ok h with ⟨hoff, rfl, -⟩ | ⟨-, -, hended, -, rfl, -⟩
  · refine ⟨?_, fun hon => ?_⟩
    · rw [recorder_put, Function.update_self]
      rfl
    · cases hon.symm.trans hoff
  · refine ⟨?_, fun _ => hended⟩
    rw [recorder_take, Function.update_of_ne other.symm, recorder_put, Function.update_self]
    rfl

/-- A flush into a member that is on leaves the buffer of the draft empty, and the draft of a
transaction out of all blocks and transactions. When all flushes of a draft go to such members, its
buffer holds what was recorded since it was emptied last, which is at most one transaction of a
draft that gets all its blocks lent. -/
theorem buffer_holds_latest_work (hstart : (e.drafts k).trace = [])
    (hrun : e.run acts = .ok (e', j)) :
    (∀ before receiver other, acts = before ++ [.flushTransaction receiver k other] →
        (e'.drafts k).recorder.block = none ∧
          ((e.recorder receiver).enabled = true →
            (e'.drafts k).buffer.isEmpty = true ∧
              (e'.drafts k).recorder.inTransaction = false)) ∧
      (∀ before receiver other, acts = before ++ [.flushBlock receiver k other] →
        (e.recorder receiver).enabled = true → (e'.drafts k).buffer.isEmpty = true) ∧
      ((∀ a ∈ acts, a.IsReceived e k) →
        ∃ done since e₁ j₁ j₂, acts = done ++ since ∧ (∀ a ∈ done.getLast?, a.Empties k) ∧
          (∀ a ∈ since, ¬ a.Empties k) ∧ e.run done = .ok (e₁, j₁) ∧
          e₁.run since = .ok (e', j₂) ∧
          (e'.drafts k).buffer.content = (j₂.of (some k)).bytes ∧
          ((e.recorder (some k)).enabled = true →
            (∀ op, .perform (some k) op ∈ acts → op.isBoundary = false) →
            since.countP (·.startsIn k) ≤ 1)) := by
  have hempty {d : Draft} (hd : d.trace = []) : d.buffer.isEmpty = true := by
    simp [Draft.buffer, hd, Trace.bytes, Buffer.isEmpty]
  refine ⟨?_, ?_, fun hreceived => ?_⟩
  · rintro before receiver other rfl
    obtain ⟨e₁, j₁, entry, hbefore, hact, -⟩ := run_concat.mp hrun
    obtain ⟨hleft, hended⟩ := recorder_flushed hact
    refine ⟨congrArg Recorder.block hleft, fun hon => ?_⟩
    have hon₁ := (enabled_run hbefore receiver).trans hon
    have hempties : (Act.flushTransaction receiver k other).Empties k := rfl
    exact ⟨hempty (trace_of_empties hempties (fun _ => hon₁) hact),
      (congrArg Recorder.inTransaction hleft).trans (hended hon₁)⟩
  · rintro before receiver other rfl hon
    obtain ⟨e₁, j₁, entry, hbefore, hact, -⟩ := run_concat.mp hrun
    have hon₁ := (enabled_run hbefore receiver).trans hon
    have hempties : (Act.flushBlock receiver k other).Empties k := rfl
    exact hempty (trace_of_empties hempties (fun _ => hon₁) hact)
  · obtain ⟨done, since, rfl, hsince, hdone⟩ := exists_since_emptied k acts
    obtain ⟨e₁, j₁, j₂, hrunDone, hrunSince, -⟩ := run_append.mp hrun
    -- the draft was empty at the start, or the last act before `since` emptied it
    have hemptied : (e₁.drafts k).trace = [] := by
      rcases List.eq_nil_or_concat done with rfl | ⟨before, a, hconcat⟩
      · obtain ⟨rfl, -⟩ := Prod.mk.inj (Except.ok.inj hrunDone)
        exact hstart
      · obtain rfl := hconcat.trans List.concat_eq_append
        obtain ⟨e₂, j₂, entry, hbefore, hact, -⟩ := run_concat.mp hrunDone
        have ha : a.IsReceived e k := hreceived a (by simp)
        exact trace_of_empties (hdone a (by simp)) (isReceived_run ha hbefore) hact
    refine ⟨done, since, e₁, j₁, j₂, rfl, hdone, hsince, hrunDone, hrunSince, ?_, ?_⟩
    · rw [Draft.buffer, trace_run hsince hrunSince, hemptied, List.nil_append]
    · intro henabled hown
      apply count_starts ((enabled_run hrunDone _).trans henabled) hsince _ hrunSince
      exact fun op hop => hown op (List.mem_append_right done hop)

/-- A failed transaction is flushed and another one begun in the same draft. -/
def reused : List (Act Bool) :=
  [.perform none (.startBlock (Consumer.plainBlock 7)), startSample false,
   .perform (some false) (.failTransaction "bad nonce"),
   .flushTransaction none false (canonical_ne _), startSample false]

theorem buffer_holds_latest_work_reused :
    (sample.drafts false).trace = [] ∧ (∀ a ∈ reused, a.IsReceived sample false) ∧
      ∃ e' j, sample.run reused = .ok (e', j) ∧
        ∃ done since e₁ j₁ j₂, reused = done ++ since ∧ (∀ a ∈ done.getLast?, a.Empties false) ∧
          (∀ a ∈ since, ¬ a.Empties false) ∧ sample.run done = .ok (e₁, j₁) ∧
          e₁.run since = .ok (e', j₂) ∧
          (e'.drafts false).buffer.content = (j₂.of (some false)).bytes ∧
          since.countP (·.startsIn false) ≤ 1 := by
  have hreceived : ∀ a ∈ reused, a.IsReceived sample false := by
    simp [reused, startSample, Act.IsReceived, recorder, sample, Tracer.recorder, Recorder.fresh]
  have hown : ∀ op, .perform (some false) op ∈ reused → op.isBoundary = false := by
    simp [reused, startSample, Operation.isBoundary]
  obtain ⟨done, since, e₁, j₁, j₂, hacts, hdone, hsince, hrunDone, hrunSince, hcontent,
      hcount⟩ := (buffer_holds_latest_work (k := false) (e := sample) rfl rfl).2.2 hreceived
  exact ⟨rfl, hreceived, _, _, rfl, done, since, e₁, j₁, j₂, hacts, hdone, hsince, hrunDone,
    hrunSince, hcontent, hcount rfl hown⟩

/-- With a canonical tracer that is off. -/
def offSample : Ensemble Bool :=
  { sample with canonical := .direct (.fresh false false) ⟨.accepting, ""⟩ }

/-- A receiver that is off takes neither the lines nor the open transaction of a draft from it, and
no lines of blocks. -/
theorem lines_stay_when_receiver_off :
    (∃ e j, offSample.run
          [startSample false, .flushTransaction none false (canonical_ne _)] = .ok (e, j) ∧
        (e.drafts false).buffer.isEmpty = false ∧
        (e.drafts false).recorder.inTransaction = true) ∧
      ∃ e j, offSample.run
          [.perform (some true) (.startBlock (Consumer.plainBlock 8)),
           .perform (some true) (.cancelBlock (Consumer.plainBlock 8) "reorg"),
           .flushBlock none true (canonical_ne _)] = .ok (e, j) ∧
        (e.drafts true).buffer.isEmpty = false :=
  ⟨⟨_, _, rfl, rfl, rfl⟩, _, _, rfl, rfl⟩

end Ensemble
end EvmTrace
