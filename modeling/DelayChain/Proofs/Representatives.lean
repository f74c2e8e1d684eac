import Mathlib.Data.Int.ModEq
import Mathlib.Order.Bounds.Defs
import DelayChain.Proofs.SignedGroup

/-!
# Canonical representatives

An element of the signed group is a class of numbers that agree modulo the modulus up to the sign. Each
class has exactly one representative below half of the modulus, and it is the least number of the class:
the modulus is odd, so no residue stands in the middle, and zero is its own negative.
-/

set_option autoImplicit false
set_option relaxedAutoImplicit false

namespace DelayChain.Delay.Parameters

variable (P : Parameters) {v w c : Nat}

private theorem sameElement_iff_modEq :
    P.SameElement v w ↔ (v : Int) ≡ w [ZMOD P.modulus] ∨ (v : Int) ≡ -w [ZMOD P.modulus] := by
  rw [← ZMod.intCast_eq_intCast_iff, ← ZMod.intCast_eq_intCast_iff, SameElement]
  push_cast
  rfl

private theorem canonical_eq_iff : P.canonical v = c ↔ P.IsCanonical c ∧ P.SameElement c v := by
  constructor
  · rintro rfl
    exact ⟨P.isCanonical_canonical v, P.sameElement_canonical v⟩
  · rintro ⟨below, same⟩
    rw [← P.canonical_congr same, P.canonical_of_isCanonical below]

private theorem canonical_le (v : Nat) : P.canonical v ≤ v := by
  have residue : v % P.modulus ≤ v := Nat.mod_le _ _
  simp only [canonical]
  split <;> omega

private theorem isLeast_canonical (v : Nat) : IsLeast {c | P.SameElement c v} (P.canonical v) := by
  refine ⟨P.sameElement_canonical v, ?_⟩
  intro c same
  rw [← P.canonical_congr same]
  exact P.canonical_le c

private theorem isCanonical_iff : P.IsCanonical v ↔ P.canonical v = v := by
  rw [P.canonical_eq_iff]
  exact (and_iff_left (.refl P v)).symm

private theorem canonical_mul (v w : Nat) :
    P.canonical (v * w) = P.canonical (P.canonical v * P.canonical w) :=
  P.canonical_congr ((P.sameElement_canonical v).mul (P.sameElement_canonical w)).symm

/-- Two numbers have one representative exactly if they agree modulo the modulus or one agrees with the
negative of the other. The numbers in the range of representatives are those that represent themselves.
The representative of a product can be taken from those of its factors. And the representative is the
least of the numbers that it represents. -/
theorem canonical_representatives (v w : Nat) :
    (P.canonical v = P.canonical w ↔
      (v : Int) ≡ w [ZMOD P.modulus] ∨ (v : Int) ≡ -w [ZMOD P.modulus]) ∧
    (P.IsCanonical v ↔ P.canonical v = v) ∧
    P.canonical (v * w) = P.canonical (P.canonical v * P.canonical w) ∧
    IsLeast {c : Nat | (c : Int) ≡ v [ZMOD P.modulus] ∨ (c : Int) ≡ -v [ZMOD P.modulus]}
      (P.canonical v) := by
  refine ⟨?_, P.isCanonical_iff, P.canonical_mul v w, ?_⟩
  · rw [P.canonical_eq_canonical_iff, P.sameElement_iff_modEq]
  · simp only [← P.sameElement_iff_modEq]
    exact P.isLeast_canonical v

end DelayChain.Delay.Parameters
