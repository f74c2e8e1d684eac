import Mathlib.Logic.Function.Iterate
import DelayChain.Proofs.ProofExistence

/-!
# Folding keeps a claim true

A claim that holds is folded with its true midpoint into one that holds, whatever the base is and
whatever challenge is drawn, and so on through all rounds. The base of the first claim may be any number;
from the first round on both numbers of a claim are representatives.
-/

set_option autoImplicit false
set_option relaxedAutoImplicit false

namespace DelayChain.Delay.Claim

variable {P : Parameters} {claim : Claim}

/-- Both numbers of the claim represent elements. -/
structure Canonical (P : Parameters) (claim : Claim) : Prop where
  base : P.IsCanonical claim.base
  output : P.IsCanonical claim.output

theorem canonical_fold (P : Parameters) (claim : Claim) (mu : Nat) :
    (claim.fold P mu).Canonical P := ⟨P.isCanonical_canonical _, P.isCanonical_canonical _⟩

private theorem Holds.after (holds : claim.Holds P) (count : Nat) : (claim.after P count).Holds P := by
  induction count generalizing claim with
  | zero => exact holds
  | succ count ih => exact ih holds.fold

private theorem Canonical.after (canonical : claim.Canonical P) (count : Nat) :
    (claim.after P count).Canonical P := by
  induction count generalizing claim with
  | zero => exact canonical
  | succ count ih => exact ih (canonical_fold P claim _)

private theorem length_after (P : Parameters) (claim : Claim) (count : Nat) :
    (claim.after P count).length = half^[count] claim.length := by
  induction count generalizing claim with
  | zero => rfl
  | succ count ih => rw [after, ih, fold_length, Function.iterate_succ_apply]

/-- Any number and what squaring it gives are folded, with the midpoint on the way, into a base and an
output that half as many squarings lead between. Both are representatives, and the same holds behind any
number of further rounds. -/
theorem fold_of_squarings (P : Parameters) (x length : Nat) :
    let folded := fold P ⟨x, P.squarings x length, length⟩ (P.squarings x (half length))
    (P.squarings folded.base (half length) = folded.output ∧
      P.IsCanonical folded.base ∧ P.IsCanonical folded.output) ∧
    ∀ count, let later := folded.after P count
      P.squarings later.base (half^[count + 1] length) = later.output ∧
        P.IsCanonical later.base ∧ P.IsCanonical later.output := by
  intro folded
  let claim : Claim := ⟨x, P.squarings x length, length⟩
  have truth : claim.Holds P := rfl
  have holds : folded.Holds P := truth.fold
  have canonical : folded.Canonical P := canonical_fold P claim _
  refine ⟨⟨holds.symm, canonical.base, canonical.output⟩, ?_⟩
  intro count later
  have lengths : later.length = half^[count + 1] length := length_after P folded count
  have truth : later.Holds P := holds.after count
  rw [← lengths]
  exact ⟨truth.symm, (canonical.after count).base, (canonical.after count).output⟩

end DelayChain.Delay.Claim
