import EvmTrace.CallStack
import Mathlib.Data.List.DropRight
import Mathlib.Data.List.Nodup
import Mathlib.Tactic.Common

/-!
# Numbers of calls

A stack is known by what it has answered. Its answers since the last reset tell which numbers calls
were given and which of these calls were closed again, and what is still open is what the stack
holds: a new call gets a number that was never given, and the call that is closed is the latest one
still open.
-/
namespace EvmTrace.CallStack

/-- The number that was given or given back, nothing for a reset, or why nothing was closed. -/
abbrev Answer := Except CloseError (Option Nat)

theorem use_pop_of_nil {s : CallStack} (h : s.calls = []) :
    s.use .pop = (.error .underflow, s) := by
  simp [use, pop, h]

theorem use_pop_of_cons {s : CallStack} {call : Nat} {outer : List Nat}
    (h : s.calls = call :: outer) : s.use .pop = (.ok (some call), { s with calls := outer }) := by
  simp [use, pop, h]

/-! ## What answers tell -/

/-- The uses of a stack with the answers to them, the latest last. -/
abbrev Log := List (Use × Answer)

namespace Log

/-- What happened since the last reset. -/
def recent (log : Log) : Log := log.rtakeWhile (·.1 ≠ .reset)

/-- How many calls were opened since the last reset. -/
def opens (log : Log) : Nat := log.recent.countP (·.1 = .push)

/-- The number in the answer to some sort of use. -/
def number? (u : Use) (x : Use × Answer) : Option Nat :=
  if x.1 = u then x.2.toOption.join else none

/-- The numbers that were answered to some sort of use since the last reset. -/
def numbers (log : Log) (u : Use) : List Nat := log.recent.filterMap (number? u)

/-- The numbers of the calls that were opened and not closed since the last reset, the latest
last. -/
def pending (log : Log) : List Nat := (log.numbers .push).filter (· ∉ log.numbers .pop)

/-- The answer that these answers call for. -/
def answer (log : Log) : Use → Answer
  | .push => .ok (some (log.opens + 1))
  | .pop => log.pending.getLast?.elim (.error .underflow) fun call => .ok (some call)
  | .reset => .ok none

variable {log : Log} {u : Use} {a : Answer}

theorem recent_concat (hu : u ≠ .reset) : recent (log ++ [(u, a)]) = log.recent ++ [(u, a)] :=
  List.rtakeWhile_concat_pos _ _ _ (by simpa using hu)

theorem recent_concat_reset : recent (log ++ [(.reset, a)]) = [] :=
  List.rtakeWhile_concat_neg _ _ _ (by simp)

theorem opens_concat_push : opens (log ++ [(.push, a)]) = log.opens + 1 := by
  simp [opens, recent_concat]

theorem opens_concat_pop : opens (log ++ [(.pop, a)]) = log.opens := by
  simp [opens, recent_concat]

theorem numbers_concat_self {n : Nat} (hu : u ≠ .reset) :
    numbers (log ++ [(u, .ok (some n))]) u = log.numbers u ++ [n] := by
  simp [numbers, recent_concat hu, number?, Except.toOption]

theorem numbers_concat_error {e : CloseError} (hu : u ≠ .reset) :
    numbers (log ++ [(u, .error e)]) u = log.numbers u := by
  simp [numbers, recent_concat hu, number?, Except.toOption]

theorem numbers_concat_other {v : Use} (hu : u ≠ .reset) (hv : u ≠ v) :
    numbers (log ++ [(u, a)]) v = log.numbers v := by
  simp [numbers, recent_concat hu, number?, hv]

end Log

/-! ## Histories -/

/-- A stack and the log of its uses. -/
structure History where
  stack : CallStack
  log : Log

namespace History

def start : History := ⟨empty, []⟩

def add (h : History) (u : Use) : History := ⟨(h.stack.use u).2, h.log ++ [(u, (h.stack.use u).1)]⟩

/-- What a new stack comes to by some uses. -/
def of (uses : List Use) : History := uses.foldl add start

theorem of_concat (uses : List Use) (u : Use) : of (uses ++ [u]) = (of uses).add u := by
  simp [of]

theorem map_fst_log (uses : List Use) : (of uses).log.map Prod.fst = uses := by
  induction uses using List.reverseRecOn with
  | nil => rfl
  | append_singleton uses u ih => simp [of_concat, add, ih]

theorem opens_le_count (uses : List Use) : (of uses).log.opens ≤ uses.count .push := by
  have hrecent : (of uses).log.opens ≤ (of uses).log.countP (·.1 = .push) :=
    (List.rtakeWhile_suffix _ _).sublist.countP_le
  have hall : uses.count .push = (of uses).log.countP (·.1 = .push) := by
    rw [← map_fst_log uses, List.count, List.countP_map, map_fst_log]
    exact List.countP_congr fun x _ => by simp
  omega

/-- The stack holds what its answers say. -/
structure Accounts (h : History) : Prop where
  opened_eq : h.stack.opened = h.log.opens
  given_eq : h.log.numbers .push = List.range' 1 h.log.opens
  closed_le : ∀ n ∈ h.log.numbers .pop, n ≤ h.log.opens
  calls_eq : h.stack.calls.reverse = h.log.pending

namespace Accounts

variable {h : History} {n : Nat}

theorem bounds (ha : h.Accounts) (hn : n ∈ h.log.pending) : 0 < n ∧ n ≤ h.log.opens := by
  have hgiven : n ∈ h.log.numbers .push := List.mem_of_mem_filter hn
  rw [ha.given_eq, List.mem_range'_1] at hgiven
  omega

theorem pairwise (ha : h.Accounts) : h.log.pending.Pairwise (· < ·) := by
  rw [Log.pending, ha.given_eq]
  exact List.Pairwise.filter _ List.pairwise_lt_range'

theorem head?_calls (ha : h.Accounts) : h.stack.calls.head? = h.log.pending.getLast? := by
  rw [← ha.calls_eq, List.getLast?_reverse]

theorem start : start.Accounts where
  opened_eq := rfl
  given_eq := rfl
  closed_le := List.forall_mem_nil _
  calls_eq := rfl

theorem reset : (h.add .reset).Accounts := by
  have hrecent : (h.add .reset).log.recent = [] := Log.recent_concat_reset
  constructor
  · rw [Log.opens, hrecent]
    rfl
  · rw [Log.numbers, Log.opens, hrecent]
    rfl
  · simp [Log.numbers, hrecent]
  · simp only [Log.pending, Log.numbers, hrecent]
    rfl

theorem push (ha : h.Accounts) : (h.add .push).Accounts := by
  have hlog : (h.add .push).log = h.log ++ [(.push, .ok (some (h.log.opens + 1)))] := by
    rw [← ha.opened_eq]
    rfl
  have hopens : (h.add .push).log.opens = h.log.opens + 1 := Log.opens_concat_push
  have hgiven : (h.add .push).log.numbers .push = h.log.numbers .push ++ [h.log.opens + 1] := by
    rw [hlog, Log.numbers_concat_self (by decide)]
  have hclosed : (h.add .push).log.numbers .pop = h.log.numbers .pop :=
    Log.numbers_concat_other (by decide) (by decide)
  have hfresh : h.log.opens + 1 ∉ h.log.numbers .pop := fun hmem => by
    have hle := ha.closed_le _ hmem
    omega
  constructor
  · rw [hopens, ← ha.opened_eq]
    rfl
  · rw [hgiven, hopens, ha.given_eq, List.range'_1_concat, Nat.add_comm 1]
  · intro n hn
    rw [hclosed] at hn
    have hle := ha.closed_le n hn
    omega
  · have hcalls : (h.add .push).stack.calls = (h.stack.opened + 1) :: h.stack.calls := rfl
    rw [hcalls, List.reverse_cons, ha.calls_eq, ha.opened_eq, Log.pending, Log.pending, hgiven,
      hclosed, List.filter_append]
    simp [hfresh]

/-- Closing nothing leaves all as it was. -/
theorem pop_nil (ha : h.Accounts) (hcalls : h.stack.calls = []) : (h.add .pop).Accounts := by
  have huse := use_pop_of_nil hcalls
  have hstack : (h.add .pop).stack = h.stack := by rw [add, huse]
  have hopens : (h.add .pop).log.opens = h.log.opens := Log.opens_concat_pop
  have hgiven : (h.add .pop).log.numbers .push = h.log.numbers .push :=
    Log.numbers_concat_other (by decide) (by decide)
  have hclosed : (h.add .pop).log.numbers .pop = h.log.numbers .pop := by
    rw [add, huse, Log.numbers_concat_error (by decide)]
  constructor
  · rw [hstack, hopens, ha.opened_eq]
  · rw [hgiven, hopens, ha.given_eq]
  · rw [hclosed, hopens]
    exact ha.closed_le
  · rw [hstack, ha.calls_eq, Log.pending, Log.pending, hgiven, hclosed]

/-- Closing a call takes off the number that was given last of those pending. -/
theorem pop_cons (ha : h.Accounts) {call : Nat} {outer : List Nat}
    (hcalls : h.stack.calls = call :: outer) : (h.add .pop).Accounts := by
  have huse := use_pop_of_cons hcalls
  have hstack : (h.add .pop).stack = { h.stack with calls := outer } := by rw [add, huse]
  have hopens : (h.add .pop).log.opens = h.log.opens := Log.opens_concat_pop
  have hgiven : (h.add .pop).log.numbers .push = h.log.numbers .push :=
    Log.numbers_concat_other (by decide) (by decide)
  have hclosed : (h.add .pop).log.numbers .pop = h.log.numbers .pop ++ [call] := by
    rw [add, huse, Log.numbers_concat_self (by decide)]
  have hpending : h.log.pending = outer.reverse ++ [call] := by
    rw [← ha.calls_eq, hcalls, List.reverse_cons]
  have hbounds : 0 < call ∧ call ≤ h.log.opens := ha.bounds (by simp [hpending])
  -- The pending numbers are all different, so no other goes with it.
  have hkept : outer.reverse.filter (· ≠ call) = outer.reverse := by
    have hpairwise := ha.pairwise
    rw [hpending, List.pairwise_append] at hpairwise
    refine List.filter_eq_self.mpr fun n hn => ?_
    have hlt : n < call := hpairwise.2.2 n hn call List.mem_cons_self
    simpa using Nat.ne_of_lt hlt
  constructor
  · rw [hstack, hopens, ha.opened_eq]
  · rw [hgiven, hopens, ha.given_eq]
  · rw [hclosed, hopens]
    exact List.forall_mem_append.mpr ⟨ha.closed_le, by simpa using hbounds.2⟩
  · have hrest : (h.add .pop).log.pending = h.log.pending.filter (· ≠ call) := by
      rw [Log.pending, Log.pending, hgiven, hclosed, List.filter_filter]
      exact List.filter_congr fun n _ => by simp [and_comm]
    rw [hstack, hrest, hpending, List.filter_append, hkept]
    simp

theorem add (ha : h.Accounts) (u : Use) : (h.add u).Accounts := by
  cases u with
  | push => exact ha.push
  | pop =>
    cases hcalls : h.stack.calls with
    | nil => exact ha.pop_nil hcalls
    | cons call outer => exact ha.pop_cons hcalls
  | reset => exact reset

theorem of (uses : List Use) : (of uses).Accounts := by
  induction uses using List.reverseRecOn with
  | nil => exact start
  | append_singleton uses u ih =>
    rw [of_concat]
    exact ih.add u

/-- The answers so far decide the next one. -/
theorem use_eq (ha : h.Accounts) (u : Use) : (h.stack.use u).1 = h.log.answer u := by
  cases u with
  | push => rw [use, Log.answer, ha.opened_eq]
  | pop =>
    rw [Log.answer, ← ha.head?_calls]
    cases hcalls : h.stack.calls with
    | nil => rw [use_pop_of_nil hcalls]; rfl
    | cons call outer => rw [use_pop_of_cons hcalls]; rfl
  | reset => rfl

theorem number_le (ha : h.Accounts) {u : Use} (hn : (h.stack.use u).1 = .ok (some n)) :
    n ≤ (h.add u).log.opens := by
  rw [ha.use_eq] at hn
  cases u with
  | push =>
    have hopens : (h.add .push).log.opens = h.log.opens + 1 := Log.opens_concat_push
    simp only [Log.answer, Except.ok.injEq, Option.some.injEq] at hn
    omega
  | pop =>
    have hopens : (h.add .pop).log.opens = h.log.opens := Log.opens_concat_pop
    have hlast : h.log.pending.getLast? = some n := by
      cases hpending : h.log.pending.getLast? <;> simp_all [Log.answer]
    rw [hopens]
    exact (ha.bounds (List.mem_of_getLast? hlast)).2
  | reset => simp [Log.answer] at hn

theorem active_eq (ha : h.Accounts) : h.stack.active = h.log.pending.getLast?.getD 0 := by
  rw [active, List.headD_eq_head?_getD, ha.head?_calls]

end Accounts

end History

/-- In every history of a stack, calls opened since the last reset got the numbers 1, 2, 3 and so
on. What is open are the calls that were opened and not closed since then, in this order, and so
with rising numbers; the latest of them is the active one, and the one that is closed next. If there
is none, closing fails, and leaves the stack as it is. -/
theorem opens_fresh_closes_innermost (uses : List Use) (u : Use)
    (hcount : (uses ++ [u]).count .push < UInt64.size) :
    let s := (History.of uses).stack
    let log := (History.of uses).log
    (s.use u).1 = log.answer u ∧
      (∀ number, (s.use u).1 = .ok (some number) → number < UInt64.size) ∧
      log.numbers .push = List.range' 1 log.opens ∧
      ((s.use .pop).1 = .error .underflow ↔ log.pending = []) ∧
      (log.pending = [] → (s.use .pop).2 = s) ∧
      s.calls.reverse = log.pending ∧ log.pending.Pairwise (· < ·) ∧
      (∀ call ∈ s.calls, 0 < call ∧ call ≤ log.opens) ∧
      s.active = log.pending.getLast?.getD 0 ∧ (s.active = 0 ↔ s.calls = []) := by
  intro s log
  have ha := History.Accounts.of uses
  have hcalls : ∀ call ∈ s.calls, 0 < call ∧ call ≤ log.opens := fun call hcall =>
    ha.bounds (by rwa [← ha.calls_eq, List.mem_reverse])
  have hnone : log.pending = [] ↔ s.calls = [] := by
    rw [← ha.calls_eq, List.reverse_eq_nil_iff]
  refine ⟨ha.use_eq u, ?_, ha.given_eq, ?_, ?_, ha.calls_eq, ha.pairwise, hcalls, ha.active_eq, ?_⟩
  · intro number hnumber
    have hle := ha.number_le hnumber
    rw [← History.of_concat] at hle
    have hopens := History.opens_le_count (uses ++ [u])
    omega
  · rw [ha.use_eq, Log.answer, ← List.getLast?_eq_none_iff]
    cases log.pending.getLast? <;> simp
  · intro hpending
    rw [use_pop_of_nil (hnone.mp hpending)]
  · cases hs : s.calls with
    | nil => simp [active, hs]
    | cons call outer =>
      have hpos := (hcalls call (by simp [hs])).1
      have hactive : s.active = call := by rw [active, hs, List.headD_cons]
      simp only [hactive, reduceCtorEq, iff_false]
      omega

/-- Two calls one inside the other, one closing too many, and a third call. -/
def sampleUses : List Use := [.push, .push, .pop, .pop, .pop, .push]

theorem opens_fresh_closes_innermost_afterUnderflow :
    (sampleUses ++ [Use.pop]).count Use.push < UInt64.size ∧
      ((History.of sampleUses).stack.use .pop).1 = .ok (some 3) ∧
      (History.of sampleUses).stack.calls.reverse = [3] := by
  have hcount : (sampleUses ++ [Use.pop]).count Use.push < UInt64.size := by decide
  obtain ⟨hanswer, -, -, -, -, hcalls, -⟩ := opens_fresh_closes_innermost sampleUses .pop hcount
  exact ⟨hcount, hanswer, hcalls⟩

end EvmTrace.CallStack
