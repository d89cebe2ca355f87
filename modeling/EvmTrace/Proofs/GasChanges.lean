import EvmTrace.Proofs.Layout

/-!
# Changes of gas

A change of gas is told with the amount before it and the exact amount after it. A consumption
beyond what there is stops the recorder. A refund beyond what 64 bits hold does not: it is told with
the greatest number instead, so the line of a refund on top of that number changes nothing.
-/
namespace EvmTrace

/-- What a change of gas comes to: nothing, a line with the `exact` new amount, or a fault because
that is no number of 64 bits. -/
inductive Recorder.TellsExactly (r : Recorder) (old amount : UInt64) (reason : GasReason)
    (exact : Int) : Except Fault Step → Prop
  | nothing : amount = 0 ∨ reason = .ignored →
    TellsExactly r old amount reason exact (.ok (.idle r))
  | line {s : Step} {new : UInt64} : amount ≠ 0 → reason ≠ .ignored → (new.toNat : Int) = exact →
    s.recorder = r → s.calls = [] → s.trace = [.gasChange r.activeCall old new reason] →
    TellsExactly r old amount reason exact (.ok s)
  | refusal {violation : Violation} : amount ≠ 0 → reason ≠ .ignored →
    (exact < 0 ∨ (UInt64.size : Int) ≤ exact) →
    TellsExactly r old amount reason exact (.error ⟨violation, r⟩)

/-- If it is a change of gas, downstream tools may meet its reason, and only a refund on top of the
greatest amount leaves the amount as it is. -/
def Event.TellsGas : Event → Prop
  | gasChange _ old new reason => reason ∈ GasReason.extractable ∧
    (old = new → reason = .refundAfterExecution ∧ old.toNat + 1 = UInt64.size)
  | _ => True

/-- If it is a change of gas, there is another amount of gas after it. -/
def Event.MovesGas : Event → Prop
  | gasChange _ old new _ => old ≠ new
  | _ => True

/-- If something is refunded, it is not on top of the greatest amount. -/
def Operation.HasRoom : Operation → Prop
  | .refundGas old amount => amount = 0 ∨ old.toNat + 1 < UInt64.size
  | _ => True

namespace Recorder

variable {r : Recorder} {s : Step} {op : Operation}

/-! ## One change -/

theorem consumeGas_of_gt {old amount : UInt64} {reason : GasReason} (hamount : amount ≠ 0)
    (hreason : reason ≠ .ignored) (hgas : old < amount) :
    r.consumeGas old amount reason = .error ⟨.gasOverdrawn old amount reason, r⟩ := by
  have hrecorded : ¬ (reason.isIgnored || amount == 0) = true := by
    simp [GasReason.isIgnored, hreason, hamount]
  rw [consumeGas, if_neg hrecorded, if_pos hgas]

theorem consumeGas_tellsExactly (r : Recorder) (old amount : UInt64) (reason : GasReason) :
    r.TellsExactly old amount reason (old.toNat - amount.toNat)
      (r.consumeGas old amount reason) := by
  by_cases hskip : amount = 0 ∨ reason = .ignored
  · rw [consumeGas_eq_ok.mpr (.inl ⟨hskip.symm, rfl⟩)]
    exact .nothing hskip
  · obtain ⟨hamount, hreason⟩ := not_or.mp hskip
    by_cases hle : amount ≤ old
    · rw [consumeGas_eq_ok.mpr (.inr ⟨hreason, hamount, hle, rfl⟩)]
      have hle' : amount.toNat ≤ old.toNat := UInt64.le_iff_toNat_le.mp hle
      have hnew : ((old - amount).toNat : Int) = old.toNat - amount.toNat := by
        rw [UInt64.toNat_sub_of_le _ _ hle]
        omega
      exact .line hamount hreason hnew rfl rfl rfl
    · have hgt : old < amount := UInt64.not_le.mp hle
      have hgt' : old.toNat < amount.toNat := UInt64.lt_iff_toNat_lt.mp hgt
      rw [consumeGas_of_gt hamount hreason hgt]
      exact .refusal hamount hreason (.inl (by omega))

theorem refundGas_of_ne_zero {old amount : UInt64} (hamount : amount ≠ 0) :
    r.refundGas old amount =
      .line r (.gasChange r.activeCall old (saturatingAdd old amount) .refundAfterExecution) := by
  have hrecorded : ¬ (amount == 0) = true := by simp [hamount]
  rw [refundGas, if_neg hrecorded]

/-- A refund is told exactly if and only if it does not exceed 64 bits. -/
theorem refundGas_tellsExactly_iff (r : Recorder) (old amount : UInt64) :
    r.TellsExactly old amount .refundAfterExecution (old.toNat + amount.toNat)
        (.ok (r.refundGas old amount)) ↔
      amount = 0 ∨ old.toNat + amount.toNat < UInt64.size := by
  by_cases hamount : amount = 0
  · have hidle : r.refundGas old amount = .idle r := by
      rw [hamount]
      rfl
    rw [hidle]
    exact ⟨fun _ => .inl hamount, fun _ => .nothing (.inl hamount)⟩
  · rw [refundGas_of_ne_zero hamount]
    constructor
    · intro h
      generalize hresult : Except.ok (Step.line r _) = result at h
      cases h with
      | nothing hskip =>
        rcases hskip with hzero | hignored
        · exact .inl hzero
        · cases hignored
      | line _ _ hnew _ _ _ =>
        right
        have hlt := UInt64.toNat_lt_size ‹UInt64›
        omega
      | refusal => cases hresult
    · rintro (hzero | hfits)
      · exact absurd hzero hamount
      · have hsum := saturatingAdd_toNat old amount
        refine .line hamount (by decide) ?_ rfl rfl rfl
        omega

/-- A refund that exceeds 64 bits is told as one that reaches the greatest number. -/
theorem saturatingAdd_of_exceeds {old amount : UInt64}
    (h : UInt64.size ≤ old.toNat + amount.toNat) :
    (saturatingAdd old amount).toNat + 1 = UInt64.size := by
  have hsum := saturatingAdd_toNat old amount
  have hsize : 0 < UInt64.size := by decide
  omega

/-! ## Lines of an operation -/

theorem ne_sub_of_ne_zero {old amount : UInt64} (hamount : amount ≠ 0) : old ≠ old - amount := by
  intro heq
  have hnat := congrArg UInt64.toNat heq
  rw [UInt64.toNat_sub] at hnat
  have hold := old.toNat_lt
  have hlt := amount.toNat_lt
  have hpos : amount.toNat ≠ 0 := fun h => hamount (UInt64.toNat_inj.mp h)
  omega

theorem gasChange_of_mem_emission {call : Nat} {old new : UInt64} {reason : GasReason}
    (h : .gasChange call old new reason ∈ r.emission op) :
    reason ≠ .ignored ∧ (old = new →
      reason = .refundAfterExecution ∧ old.toNat + 1 = UInt64.size ∧ ¬ op.HasRoom) := by
  cases op with
  | endFailedCall gasLeft isRevert text =>
    cases isRevert with
    | true => simp [emission] at h
    | false =>
      by_cases hgas : gasLeft = 0
      · simp [emission, hgas] at h
      · simp only [emission, hgas, if_false, List.cons_append, List.nil_append, List.mem_cons,
          List.not_mem_nil, or_false, reduceCtorEq, false_or, Event.gasChange.injEq] at h
        obtain ⟨-, rfl, rfl, rfl⟩ := h
        exact ⟨by decide, fun heq => absurd heq hgas⟩
  | consumeGas before amount why =>
    by_cases hskip : (why.isIgnored || amount == 0) = true
    · simp [emission, hskip] at h
    · rw [emission, if_neg hskip, List.mem_singleton, Event.gasChange.injEq] at h
      obtain ⟨-, rfl, rfl, rfl⟩ := h
      simp only [GasReason.isIgnored, Bool.or_eq_true, beq_iff_eq, not_or] at hskip
      exact ⟨hskip.1, fun heq => absurd heq (ne_sub_of_ne_zero hskip.2)⟩
  | refundGas before amount =>
    by_cases hskip : (amount == 0) = true
    · simp [emission, hskip] at h
    · rw [emission, if_neg hskip, List.mem_singleton, Event.gasChange.injEq] at h
      obtain ⟨-, rfl, rfl, rfl⟩ := h
      rw [beq_iff_eq] at hskip
      refine ⟨by decide, fun heq => ?_⟩
      have hsum := saturatingAdd_toNat old amount
      rw [← heq] at hsum
      have hpos : amount.toNat ≠ 0 := fun hzero => hskip (UInt64.toNat_inj.mp hzero)
      have hlt := old.toNat_lt_size
      have htop : old.toNat + 1 = UInt64.size := by omega
      refine ⟨rfl, htop, ?_⟩
      rintro (hzero | hroom)
      · exact hskip hzero
      · omega
  | changeBalance address before after why =>
    by_cases hskip : why.isIgnored = true
    · simp [emission, hskip] at h
    · simp [emission, hskip] at h
  | _ => simp [emission] at h

theorem gasChange_of_mem_perform {call : Nat} {old new : UInt64} {reason : GasReason}
    (hperform : r.perform op = .ok s) (h : .gasChange call old new reason ∈ s.trace) :
    reason ≠ .ignored ∧ (old = new →
      reason = .refundAfterExecution ∧ old.toNat + 1 = UInt64.size ∧ ¬ op.HasRoom) := by
  cases henabled : r.enabled with
  | false =>
    rw [perform_disabled r op henabled] at hperform
    obtain rfl := Except.ok.inj hperform
    rcases r.trace_ignore op with htrace | ⟨number, htrace⟩
    · simp [htrace] at h
    · simp [htrace] at h
  | true =>
    rw [perform_enabled henabled] at hperform
    rw [trace_record hperform] at h
    exact gasChange_of_mem_emission h

theorem tellsGas_perform (h : r.perform op = .ok s) : ∀ x ∈ s.trace, x.TellsGas := by
  intro x hx
  cases x with
  | gasChange call old new reason =>
    obtain ⟨hreason, hsame⟩ := gasChange_of_mem_perform h hx
    exact ⟨(GasReason.mem_extractable_iff reason).mpr hreason,
      fun heq => ⟨(hsame heq).1, (hsame heq).2.1⟩⟩
  | _ => trivial

theorem movesGas_perform (hroom : op.HasRoom) (h : r.perform op = .ok s) :
    ∀ x ∈ s.trace, x.MovesGas := by
  intro x hx
  cases x with
  | gasChange call old new reason =>
    obtain ⟨-, hsame⟩ := gasChange_of_mem_perform h hx
    exact fun heq => (hsame heq).2.2 hroom
  | _ => trivial

end Recorder

/-! ## Lines of a run -/

namespace Ensemble

variable {ι : Type} [DecidableEq ι]

/-- A consumption is told exactly, or it is nothing or ignored and not told, or there is less than
it takes and it is refused. So is a refund if and only if it does not exceed 64 bits; one that does
is told with the greatest number. In every run each line of a change of gas has a reason that
downstream tools may meet, and its amounts differ unless something was refunded on top of the
greatest amount. -/
theorem gas_changes_are_exact :
    (∀ (r : Recorder) (old amount : UInt64) (reason : GasReason), r.enabled = true →
      r.TellsExactly old amount reason (old.toNat - amount.toNat)
        (r.perform (.consumeGas old amount reason))) ∧
    (∀ (r : Recorder) (old amount : UInt64), r.enabled = true →
      (r.TellsExactly old amount .refundAfterExecution (old.toNat + amount.toNat)
          (r.perform (.refundGas old amount)) ↔
        amount = 0 ∨ old.toNat + amount.toNat < UInt64.size) ∧
      (UInt64.size ≤ old.toNat + amount.toNat → ∃ top : UInt64, top.toNat + 1 = UInt64.size ∧
        r.perform (.refundGas old amount) =
          .ok (.line r (.gasChange r.activeCall old top .refundAfterExecution)))) ∧
    ∀ (e e' : Ensemble ι) (acts : List (Act ι)) (j : Journal ι), e.Untouched →
      e.run acts = .ok (e', j) →
      (e.canonical.AcceptsAll →
        e'.canonical.content = e.canonical.content ++ (j.of none).bytes) ∧
      ∀ m, (∀ x ∈ e'.lines (j.of none) m, x.TellsGas) ∧
        ((∀ a ∈ acts, a.Asks Operation.HasRoom) → ∀ x ∈ e'.lines (j.of none) m, x.MovesGas) := by
  refine ⟨fun r old amount reason hon => ?_, fun r old amount hon => ⟨?_, fun hexceeds => ?_⟩,
    fun e e' acts j h hrun => ⟨fun haccepts => content_run haccepts hrun,
      fun m => ⟨?_, fun hroom => ?_⟩⟩⟩
  · rw [Recorder.perform_enabled hon]
    exact r.consumeGas_tellsExactly old amount reason
  · rw [Recorder.perform_enabled hon]
    exact r.refundGas_tellsExactly_iff old amount
  · have hlt := old.toNat_lt_size
    have hamount : amount ≠ 0 := by
      rintro rfl
      simp only [UInt64.toNat_zero] at hexceeds
      omega
    refine ⟨_, Recorder.saturatingAdd_of_exceeds hexceeds, ?_⟩
    rw [Recorder.perform_enabled hon]
    exact congrArg Except.ok (Recorder.refundGas_of_ne_zero hamount)
  · have hall : ∀ a ∈ acts, a.Asks fun _ => True := fun a _ => by cases a <;> trivial
    exact throughout_run (fun _ => trivial) (fun _ _ _ _ hs => Recorder.tellsGas_perform hs) h hall
      hrun m
  · exact throughout_run (fun _ => trivial) (fun _ _ _ hop hs => Recorder.movesGas_perform hop hs)
      h hroom hrun m

/-- Of these four changes two are told. -/
def gasUse : List (Act Bool) :=
  [.perform none (.consumeGas 10 3 .call), .perform none (.consumeGas 7 0 .call),
   .perform none (.consumeGas 7 7 .ignored), .perform none (.refundGas 7 18446744073709551608)]

theorem gas_changes_are_exact_twoTold :
    let r := Recorder.fresh true false
    r.TellsExactly 3 5 .call (3 - 5) (r.perform (.consumeGas 3 5 .call)) ∧
    r.TellsExactly 7 18446744073709551608 .refundAfterExecution (7 + 18446744073709551608)
      (r.perform (.refundGas 7 18446744073709551608)) ∧
    ∃ e' j, sample.run gasUse = .ok (e', j) ∧ sample.Untouched ∧
      (∀ a ∈ gasUse, a.Asks Operation.HasRoom) ∧ (∀ x ∈ e'.lines (j.of none) none, x.MovesGas) ∧
      e'.canonical.content = Bytes.ofText ("FIRE GAS_CHANGE 0 10 7 call\n" ++
        "FIRE GAS_CHANGE 0 7 18446744073709551615 refund_after_execution\n") := by
  intro r
  have hroom : ∀ a ∈ gasUse, a.Asks Operation.HasRoom := by
    simp only [gasUse, List.forall_mem_cons, Act.Asks, Operation.HasRoom]
    exact ⟨trivial, trivial, trivial, .inr (by decide), by simp⟩
  obtain ⟨hconsumed, hrefunded, hrun⟩ := gas_changes_are_exact (ι := Bool)
  obtain ⟨hcontent, hlines⟩ := hrun sample _ gasUse _ untouched_sample rfl
  have hfits : (7 : UInt64).toNat + (18446744073709551608 : UInt64).toNat < UInt64.size := by decide
  exact ⟨hconsumed r 3 5 .call rfl, (hrefunded r 7 _ rfl).1.mpr (.inr hfits), _, _, rfl,
    untouched_sample, hroom, (hlines none).2 hroom,
    (hcontent Sink.acceptsAll_accepting).trans rfl⟩

def greatestGas : UInt64 := 18446744073709551615

/-- Where one cannot consume beyond the least amount, one can refund beyond the greatest. -/
theorem refund_on_top_changes_nothing :
    let r := Recorder.fresh true false
    r.perform (.consumeGas 0 1 .call) = .error ⟨.gasOverdrawn 0 1 .call, r⟩ ∧
    r.perform (.refundGas greatestGas 1) =
      .ok (.line r (.gasChange 0 greatestGas greatestGas .refundAfterExecution)) ∧
    ¬ r.TellsExactly greatestGas 1 .refundAfterExecution (greatestGas.toNat + 1)
      (r.perform (.refundGas greatestGas 1)) ∧
    ∃ e' j, sample.run [.perform none (.refundGas greatestGas 1)] = .ok (e', j) ∧
      (¬ ∀ x ∈ j.of none, x.MovesGas) ∧ e'.canonical.content = Bytes.ofText
        ("FIRE GAS_CHANGE 0 18446744073709551615 18446744073709551615 " ++
          "refund_after_execution\n") := by
  intro r
  have hinexact := r.refundGas_tellsExactly_iff greatestGas 1
  have haccepts : sample.canonical.AcceptsAll := Sink.acceptsAll_accepting
  have hrun : sample.run [.perform none (.refundGas greatestGas 1)] = .ok (_, _) := rfl
  refine ⟨rfl, rfl, fun htold => ?_, _, _, hrun, fun hmoves => ?_,
    (content_run haccepts hrun).trans rfl⟩
  · rcases hinexact.mp htold with hzero | hfits
    · exact absurd hzero (by decide)
    · exact absurd hfits (by decide)
  · exact hmoves (.gasChange 0 greatestGas greatestGas .refundAfterExecution) (by decide) rfl

end Ensemble
end EvmTrace
