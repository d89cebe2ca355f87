/-!
# Open calls

Calls are numbered from 1 on in the order they are opened, and closed innermost first. Numbers
start again only when the stack is reset.
-/
namespace EvmTrace

/-- The open calls, innermost first, and how many were opened since the last reset. -/
structure CallStack where
  /-- It stands for a counter of 64 bits and agrees with one below `2 ^ 64`. -/
  opened : Nat
  calls : List Nat
  deriving DecidableEq, Repr

namespace CallStack

inductive CloseError
  | underflow
  deriving DecidableEq, Repr

def CloseError.message : CloseError → String
  | .underflow => "call stack underflow, no call is currently open"

def empty : CallStack := ⟨0, []⟩

/-- Opens the next call inside the innermost one. -/
def push (s : CallStack) : CallStack := ⟨s.opened + 1, (s.opened + 1) :: s.calls⟩

/-- Closes the innermost call and gives its number. -/
def pop (s : CallStack) : Except CloseError (Nat × CallStack) :=
  match s.calls with
  | [] => .error .underflow
  | call :: outer => .ok (call, { s with calls := outer })

/-- The number of the innermost call, 0 when none is open. -/
def active (s : CallStack) : Nat := s.calls.headD 0

def depth (s : CallStack) : Nat := s.calls.length

def isEmpty (s : CallStack) : Bool := s.calls.isEmpty

/-- One use of the stack. -/
inductive Use
  | push | pop | reset
  deriving DecidableEq, Repr

/-- What a use answers: the number opened or closed, nothing for a reset. -/
def use (s : CallStack) : Use → Except CloseError (Option Nat) × CallStack
  | .push => (.ok (some (s.opened + 1)), s.push)
  | .pop =>
    match s.pop with
    | .ok (call, rest) => (.ok (some call), rest)
    | .error e => (.error e, s)
  | .reset => (.ok none, empty)

theorem pop_push (s : CallStack) :
    s.push.pop = .ok (s.opened + 1, { s with opened := s.opened + 1 }) := rfl

theorem active_push (s : CallStack) : s.push.active = s.opened + 1 := rfl

theorem depth_push (s : CallStack) : s.push.depth = s.depth + 1 := rfl

end CallStack
end EvmTrace
