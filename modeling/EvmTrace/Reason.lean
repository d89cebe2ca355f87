import EvmTrace.Bytes
import EvmTrace.Text.Quoted

/-!
# Reasons of gas and balance changes

Every reason has a wire word. Downstream tools extract the words from the trace, so each reason
but `ignored` keeps to their alphabet; changes made for an ignored reason are not recorded.
-/
namespace EvmTrace

/-- Why gas was consumed or given back. -/
inductive GasReason
  | call | callCode | callDataCopy | codeCopy | codeStorage | contractCreation
  | contractCreation2 | delegateCall | eventLog | extCodeCopy | failedExecution | intrinsicGas
  | precompiledContract | refundAfterExecution | returned | returnDataCopy | revert
  | selfDestruct | staticCall | stateColdAccess
  /-- A bookkeeping change that is not recorded. -/
  | ignored
  deriving DecidableEq, Repr

/-- Why the balance of an account changed. -/
inductive BalanceReason
  | rewardMineUncle | rewardMineBlock | daoRefundContract | daoAdjustBalance | transfer
  | genesisBalance | gasBuy | rewardTransactionFee | gasRefund | touchAccount | suicideRefund
  | suicideWithdraw | burn | withdrawal
  /-- A bookkeeping change that is not recorded. -/
  | ignored
  deriving DecidableEq, Repr

/-- A word that no reason of its kind is written as. -/
structure UnknownReason where
  kind : String
  word : String
  deriving DecidableEq, Repr

def UnknownReason.message (e : UnknownReason) : String :=
  "unknown " ++ e.kind ++ " change reason " ++ Text.Quoted.encode e.word

/-- Extractable words are not empty and hold lowercase letters, digits and underscores only. -/
def isExtractableWord (word : String) : Bool :=
  let b := Bytes.ofText word
  !b.isEmpty && b.all fun x => (97 ≤ x && x ≤ 122) || (48 ≤ x && x ≤ 57) || x == 95

namespace GasReason

def word : GasReason → String
  | call => "call"
  | callCode => "call_code"
  | callDataCopy => "call_data_copy"
  | codeCopy => "code_copy"
  | codeStorage => "code_storage"
  | contractCreation => "contract_creation"
  | contractCreation2 => "contract_creation2"
  | delegateCall => "delegate_call"
  | eventLog => "event_log"
  | extCodeCopy => "ext_code_copy"
  | failedExecution => "failed_execution"
  | intrinsicGas => "intrinsic_gas"
  | precompiledContract => "precompiled_contract"
  | refundAfterExecution => "refund_after_execution"
  | returned => "return"
  | returnDataCopy => "return_data_copy"
  | revert => "revert"
  | selfDestruct => "self_destruct"
  | staticCall => "static_call"
  | stateColdAccess => "state_cold_access"
  | ignored => "ignored"

/-- The reasons that downstream tools may meet, all but the ignored one. -/
def extractable : List GasReason :=
  [call, callCode, callDataCopy, codeCopy, codeStorage, contractCreation, contractCreation2,
   delegateCall, eventLog, extCodeCopy, failedExecution, intrinsicGas, precompiledContract,
   refundAfterExecution, returned, returnDataCopy, revert, selfDestruct, staticCall,
   stateColdAccess]

def isIgnored (r : GasReason) : Bool := r == ignored

def ofWord (word : String) : Except UnknownReason GasReason :=
  match (extractable ++ [ignored]).find? (·.word == word) with
  | some r => .ok r
  | none => .error ⟨"gas", word⟩

theorem ofWord_word (r : GasReason) : ofWord r.word = .ok r := by cases r <;> rfl

theorem mem_extractable_iff (r : GasReason) : r ∈ extractable ↔ r ≠ ignored := by
  cases r <;> decide

end GasReason

namespace BalanceReason

def word : BalanceReason → String
  | rewardMineUncle => "reward_mine_uncle"
  | rewardMineBlock => "reward_mine_block"
  | daoRefundContract => "dao_refund_contract"
  | daoAdjustBalance => "dao_adjust_balance"
  | transfer => "transfer"
  | genesisBalance => "genesis_balance"
  | gasBuy => "gas_buy"
  | rewardTransactionFee => "reward_transaction_fee"
  | gasRefund => "gas_refund"
  | touchAccount => "touch_account"
  | suicideRefund => "suicide_refund"
  | suicideWithdraw => "suicide_withdraw"
  | burn => "burn"
  | withdrawal => "withdrawal"
  | ignored => "ignored"

/-- The reasons that downstream tools may meet, all but the ignored one. -/
def extractable : List BalanceReason :=
  [rewardMineUncle, rewardMineBlock, daoRefundContract, daoAdjustBalance, transfer,
   genesisBalance, gasBuy, rewardTransactionFee, gasRefund, touchAccount, suicideRefund,
   suicideWithdraw, burn, withdrawal]

def isIgnored (r : BalanceReason) : Bool := r == ignored

def ofWord (word : String) : Except UnknownReason BalanceReason :=
  match (extractable ++ [ignored]).find? (·.word == word) with
  | some r => .ok r
  | none => .error ⟨"balance", word⟩

theorem ofWord_word (r : BalanceReason) : ofWord r.word = .ok r := by cases r <;> rfl

theorem mem_extractable_iff (r : BalanceReason) : r ∈ extractable ↔ r ≠ ignored := by
  cases r <;> decide

end BalanceReason
end EvmTrace
