import DelayChain.Difficulty.Schedule
import DelayChain.Mining.Search

/-!
# Proposals

A proposal is the child of a block with some requests, mined at the difficulty that the schedule
demands of its height. Only a sealed block can go on to be finalized, and a proposal is sealed.
-/

set_option autoImplicit false
set_option relaxedAutoImplicit false

namespace DelayChain

/-- A block that carries a work hash. -/
structure MinedBlock where
  block : Block
  workHash : String
  isSealed : block.workHash = some workHash
  deriving DecidableEq

/-- The block as a mined one, if it carries a work hash. -/
def MinedBlock.ofBlock? (block : Block) : Option MinedBlock :=
  match h : block.workHash with
  | some workHash => some ⟨block, workHash, h⟩
  | none => none

/-- Why there is no proposal. -/
inductive ProposalError where
  | tooManyRequests (count max : Nat)
  | mining (error : MiningError)
  deriving DecidableEq

def ProposalError.message : ProposalError → String
  | .tooManyRequests count max => s!"{count} transactions exceed the per-block cap of {max}"
  | .mining error => error.message

/-- The child of a block, stamped with a time and not mined yet. -/
def Block.child (parent : Block) (schedule : Schedule) (now : Int64) (requests : List Request) :
    Block :=
  candidate (parent.height + 1) (some parent.hash) requests
    (schedule.difficultyAt (parent.height + 1)) now

/-- Builds and mines a child of a block. -/
def Block.propose (parent : Block) (hasher : Hasher) (schedule : Schedule) (maxRequests : Nat)
    (now : Int64) (requests : List Request) (flag : UInt64 → Bool) :
    Except ProposalError MinedBlock :=
  if maxRequests < requests.length then .error (.tooManyRequests requests.length maxRequests)
  else
    let block := parent.child schedule now requests
    match block.search hasher flag with
    | .won nonce digest => .ok ⟨{ block with nonce }.sealWith digest, digest, rfl⟩
    | .cancelled _ => .error (.mining .cancelled)
    | .exhausted => .error (.mining .exhausted)

end DelayChain
