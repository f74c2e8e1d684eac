import DelayChain.Delay.Verifier
import DelayChain.Mining.Proposal

/-!
# Finalization

A mined block is finalized by a delay proof over an input drawn from its work hash, alone or with
its time. Whoever checks the block draws the same input from it.
-/

set_option autoImplicit false
set_option relaxedAutoImplicit false

namespace DelayChain

/-- What the input of the delay function is drawn from. -/
inductive DelayInput where
  | workHash
  | workHashAndTime
  deriving DecidableEq

/-- The input drawn from a work hash and a time. -/
def DelayInput.bytes (input : DelayInput) (workHash : String) (timestamp : Int64) : Bytes :=
  match input with
  | .workHash => Bytes.ofText workHash
  | .workHashAndTime => Bytes.ofText (workHash ++ ":" ++ toString timestamp.toInt)

/-- The input drawn from a block, if it is mined. -/
def DelayInput.ofBlock? (input : DelayInput) (block : Block) : Option Bytes :=
  block.workHash.map fun workHash => input.bytes workHash block.timestamp

/-- Why the delay proof of a block is refused. -/
inductive DelayRejection where
  | missingProof
  | missingInput
  | timeMismatch (recorded proven : UInt64)
  | proof (reason : Delay.ProofRejection)
  deriving DecidableEq

def DelayRejection.message : DelayRejection → String
  | .missingProof => "block is not finalized with a VDF proof"
  | .missingInput => "block has no proof-of-work hash to derive the VDF input from"
  | .timeMismatch recorded proven =>
    s!"block time parameter {recorded} differs from its proof's {proven}"
  | .proof reason => reason.message

/-- Proves the delay of a mined block and attaches the proof. -/
def MinedBlock.finalize (mined : MinedBlock) (P : Delay.Parameters) (input : DelayInput)
    (hasher : Hasher) (now : Int64) : Except Delay.ProvingError Block :=
  match Delay.prove P now (input.bytes mined.workHash mined.block.timestamp) with
  | .ok proof => .ok (mined.block.attach proof hasher)
  | .error error => .error error

/-- Accepts the delay proof of a block or names its first fault. -/
def Block.checkDelay (block : Block) (P : Delay.Parameters) (input : DelayInput) :
    Except DelayRejection Unit :=
  match block.proof with
  | none => .error .missingProof
  | some proof =>
    if block.finalized = false then .error .missingProof
    else if block.time ≠ proof.time then .error (.timeMismatch block.time proof.time)
    else
      match input.ofBlock? block with
      | none => .error .missingInput
      | some bytes =>
        match Delay.verify P bytes proof with
        | .error reason => .error (.proof reason)
        | .ok () => .ok ()

end DelayChain
