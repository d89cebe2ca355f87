/-!
# Kinds of calls

The protocol has one word for both ways to create a contract.
-/
namespace EvmTrace

inductive CallType
  | call | callCode | delegateCall | staticCall | create
  deriving DecidableEq, Repr

def CallType.word : CallType → String
  | call => "CALL"
  | callCode => "CALLCODE"
  | delegateCall => "DELEGATE"
  | staticCall => "STATIC"
  | create => "CREATE"

def CallType.all : List CallType := [.call, .callCode, .delegateCall, .staticCall, .create]

theorem CallType.mem_all (t : CallType) : t ∈ all := by cases t <;> decide

end EvmTrace
