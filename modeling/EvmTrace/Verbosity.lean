/-!
# Verbosity

How much the recorder tells about its own work. Each level tells all that the levels below it do.
-/
namespace EvmTrace

inductive Verbosity
  | silent | info | debug | trace
  /-- Also the data behind every hash. -/
  | full
  deriving DecidableEq, Repr

namespace Verbosity

/-- The environment variable that names the level. -/
def environmentName : String := "FIREHOSE_ETHEREUM_TRACER_LOG_LEVEL"

def rank : Verbosity → Nat
  | silent => 0
  | info => 1
  | debug => 2
  | trace => 3
  | full => 4

/-- The level of a name in any letter case; an unknown name is silent. -/
def ofName (name : String) : Verbosity :=
  match name.toLower with
  | "info" => info
  | "debug" => debug
  | "trace" => trace
  | "trace_full" => full
  | _ => silent

/-- Whether diagnostics that need a level are told at this one. -/
def allows (v wanted : Verbosity) : Bool := wanted != silent && wanted.rank ≤ v.rank

theorem allows_mono {v w wanted : Verbosity} (h : v.rank ≤ w.rank) (hv : v.allows wanted) :
    w.allows wanted := by
  simp only [allows, Bool.and_eq_true, decide_eq_true_eq] at hv ⊢
  exact ⟨hv.1, Nat.le_trans hv.2 h⟩

end Verbosity
end EvmTrace
