import AgentPlatform.Contracts.Ids

/-!
# The closed enumerations of the contracts

`OperationKind` and `OperationOutcomeStatus` (`operation.rs`), `SessionStatus` and
`WaitResumeReason` (`event.rs`), `WaitMode` (`wait.rs`), with the words the store and the wire
spell them by.
-/

namespace AgentPlatform

inductive OperationKind where
  | llm
  | execution
  | llmCancellation
  | withdraw
deriving DecidableEq, Repr, Inhabited

/-- `operation_kind_str`. -/
def OperationKind.asStr : OperationKind → String
  | .llm => "llm"
  | .execution => "execution"
  | .llmCancellation => "llm_cancellation"
  | .withdraw => "withdraw"

inductive OperationOutcomeStatus where
  | succeeded
  | failed
  | cancelled
  | unknown
deriving DecidableEq, Repr, Inhabited

inductive SessionStatus where
  | idle
  | running
  | waiting
  | cancelling
  | cancelled
  | failed
deriving DecidableEq, Repr, Inhabited

inductive WaitMode where
  | external
  | expiration
  | either
deriving DecidableEq, Repr, Inhabited

inductive WaitResumeReason where
  | resolved
  | expired
  | cancelled
deriving DecidableEq, Repr, Inhabited

/-- The wire word of a resume reason. -/
def WaitResumeReason.asStr : WaitResumeReason → String
  | .resolved => "resolved"
  | .expired => "expired"
  | .cancelled => "cancelled"

end AgentPlatform
