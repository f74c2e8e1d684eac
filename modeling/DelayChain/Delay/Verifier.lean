import DelayChain.Delay.Prover

/-!
# Checking proofs of sequential work

The rounds are replayed with the midpoints of the proof until the length is one; that single squaring
is then checked directly. A proof is refused for the first fault met on the way.
-/

set_option autoImplicit false
set_option relaxedAutoImplicit false

namespace DelayChain.Delay

/-- Why a proof is refused. -/
inductive ProofRejection where
  | timeMismatch (expected found : UInt64)
  | outputOutOfRange
  | midpointOutOfRange (index : Nat)
  | nonResidue (index : Nat)
  | tooShort (length : Nat)
  | tooLong (extra : Nat)
  | outputMismatch
  deriving DecidableEq

def ProofRejection.message : ProofRejection → String
  | .timeMismatch expected found =>
    s!"proof time parameter {found} differs from the configured {expected}"
  | .outputOutOfRange => "claimed output is not a canonical signed group element"
  | .midpointOutOfRange index => s!"proof element {index} is not a canonical signed group element"
  | .nonResidue index => s!"proof element {index} is not in the signed quadratic residue group"
  | .tooShort length => s!"proof ended after {length} elements before reaching T = 1"
  | .tooLong extra => s!"proof has {extra} unused trailing elements"
  | .outputMismatch => "claimed output does not match the final squaring"

/-- Replays a claim with the midpoints from the given index on. -/
def replay (P : Parameters) (index : Nat) (claim : Claim) : List Nat → Except ProofRejection Unit
  | [] =>
    if 1 < claim.length then .error (.tooShort index)
    else if P.canonical (claim.base * claim.base) = claim.output then .ok ()
    else .error .outputMismatch
  | mu :: rest =>
    if claim.length ≤ 1 then .error (.tooLong (rest.length + 1))
    else if ¬P.IsCanonical mu then .error (.midpointOutOfRange index)
    else if ¬P.IsResidue mu then .error (.nonResidue index)
    else replay P (index + 1) (claim.fold P mu) rest

/-- Accepts a proof for an input or names its first fault. -/
def verify (P : Parameters) (input : Bytes) (proof : Proof) : Except ProofRejection Unit :=
  if proof.time ≠ P.time then .error (.timeMismatch P.time proof.time)
  else if ¬P.IsCanonical proof.output then .error .outputOutOfRange
  else replay P 0 (P.claim input proof.output) proof.midpoints

end DelayChain.Delay
