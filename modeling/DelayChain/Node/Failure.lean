import DelayChain.Block.Chain
import DelayChain.Node.Validation

/-!
# Phases and failures of a node

The phase says where a node stands in the cycle of one block; a failure says why an operation of the
node gave no result.
-/

set_option autoImplicit false
set_option relaxedAutoImplicit false

namespace DelayChain

/-- Where a node stands in the cycle of one block. -/
inductive Phase where
  | idle
  | proposing
  | powDone
  | finalizing
  | finalized
  | validating
  | accepted
  | rejected
  deriving DecidableEq

def Phase.name : Phase → String
  | .idle => "Idle"
  | .proposing => "Proposing"
  | .powDone => "PowDone"
  | .finalizing => "Finalizing"
  | .finalized => "Finalized"
  | .validating => "Validating"
  | .accepted => "Accepted"
  | .rejected => "Rejected"

/-- Why an operation of a node gave no result. -/
inductive Failure where
  | proposal (error : ProposalError)
  | unsealed
  | wrongPhase (expected actual : Phase)
  | notProposed (workHash : String)
  | proving (error : Delay.ProvingError)
  | schedule (error : ScheduleError)
  | chain (error : ChainError)
  | rejected (reason : Rejection)
  | auditFailed (height : UInt64) (reason : Rejection)
  deriving DecidableEq

def Failure.message : Failure → String
  | .proposal error => error.message
  | .unsealed => "cannot finalize a block without a proof-of-work hash"
  | .wrongPhase expected actual =>
    s!"operation requires phase {expected.name}, orchestrator is in {actual.name}"
  | .notProposed workHash => s!"block {workHash} was not mined by the preceding proposal"
  | .proving error => error.message
  | .schedule error => error.message
  | .chain error => error.message
  | .rejected reason => "block rejected: " ++ reason.message
  | .auditFailed height reason => s!"block #{height} failed audit: {reason.message}"

end DelayChain
