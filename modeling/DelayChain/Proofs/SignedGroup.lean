import Mathlib.Data.ZMod.Basic
import Mathlib.Tactic.Ring
import DelayChain.Delay.SignedGroup
import DelayChain.Proofs.Power

/-!
# Laws of the signed residue group

Two numbers stand for one element where they agree modulo the modulus up to the sign. Products and
powers respect this relation, and equality of representatives decides it, so a statement about
representatives is proved by computing with residues and dropping signs.
-/

set_option autoImplicit false
set_option relaxedAutoImplicit false

namespace DelayChain.Delay.Parameters

/-- Two numbers stand for one element: their residues agree up to the sign. -/
def SameElement (P : Parameters) (a b : Nat) : Prop :=
  (a : ZMod P.modulus) = b ∨ (a : ZMod P.modulus) = -b

namespace SameElement

variable {P : Parameters} {a b c d : Nat}

theorem refl (P : Parameters) (a : Nat) : P.SameElement a a := Or.inl rfl

theorem of_mod_eq (h : a % P.modulus = b % P.modulus) : P.SameElement a b :=
  Or.inl ((ZMod.natCast_eq_natCast_iff' a b P.modulus).mpr h)

theorem symm (h : P.SameElement a b) : P.SameElement b a := by
  rcases h with h | h
  · exact Or.inl h.symm
  · exact Or.inr (by rw [h, neg_neg])

theorem trans (hab : P.SameElement a b) (hbc : P.SameElement b c) : P.SameElement a c := by
  rcases hab with hab | hab <;> rcases hbc with hbc | hbc
  · exact Or.inl (hab.trans hbc)
  · exact Or.inr (hab.trans hbc)
  · exact Or.inr (by rw [hab, hbc])
  · exact Or.inl (by rw [hab, hbc, neg_neg])

theorem mul (hab : P.SameElement a b) (hcd : P.SameElement c d) :
    P.SameElement (a * c) (b * d) := by
  unfold SameElement at *
  push_cast
  rcases hab with hab | hab <;> rcases hcd with hcd | hcd
  · exact Or.inl (by rw [hab, hcd])
  · exact Or.inr (by rw [hab, hcd]; ring)
  · exact Or.inr (by rw [hab, hcd]; ring)
  · exact Or.inl (by rw [hab, hcd]; ring)

theorem pow (h : P.SameElement a b) (k : Nat) : P.SameElement (a ^ k) (b ^ k) := by
  induction k with
  | zero => exact refl P _
  | succ k ih =>
    rw [pow_succ, pow_succ]
    exact ih.mul h

theorem coprime (h : P.SameElement a b) (unit : Nat.Coprime b P.modulus) :
    Nat.Coprime a P.modulus := by
  rw [← ZMod.isUnit_iff_coprime] at unit ⊢
  rcases h with h | h
  · rwa [h]
  · rw [h]
    exact unit.neg

theorem of_mul_left (unit : Nat.Coprime c P.modulus) (h : P.SameElement (c * a) (c * b)) :
    P.SameElement a b := by
  have invertible : IsUnit (c : ZMod P.modulus) := (ZMod.isUnit_iff_coprime c P.modulus).mpr unit
  unfold SameElement at *
  push_cast at h
  rcases h with h | h
  · exact Or.inl (invertible.mul_left_cancel h)
  · exact Or.inr (invertible.mul_left_cancel (h.trans (mul_neg _ _).symm))

end SameElement

variable (P : Parameters)

theorem sameElement_canonical (v : Nat) : P.SameElement (P.canonical v) v := by
  have below : v % P.modulus ≤ P.modulus := (Nat.mod_lt v (by have := P.one_lt_modulus; omega)).le
  simp only [canonical]
  split
  · refine Or.inr ?_
    rw [Nat.cast_sub below, ZMod.natCast_self, ZMod.natCast_mod, zero_sub]
  · exact Or.inl (ZMod.natCast_mod v P.modulus)

theorem canonical_congr {v w : Nat} (h : P.SameElement v w) : P.canonical v = P.canonical w := by
  have positive : 0 < P.modulus := by have := P.one_lt_modulus; omega
  have hv := Nat.mod_lt v positive
  have hw := Nat.mod_lt w positive
  rcases h with h | h
  · have residues := (ZMod.natCast_eq_natCast_iff' v w P.modulus).mp h
    simp only [canonical, residues]
  · -- opposite residues add up to zero or to the modulus
    have divides : P.modulus ∣ v + w := by
      rw [← ZMod.natCast_eq_zero_iff, Nat.cast_add, h, neg_add_cancel]
    have total : (v % P.modulus + w % P.modulus) % P.modulus = 0 := by
      rw [← Nat.add_mod]
      exact Nat.mod_eq_zero_of_dvd divides
    have cases : v % P.modulus + w % P.modulus = 0 ∨
        v % P.modulus + w % P.modulus = P.modulus := by
      rcases Nat.lt_or_ge (v % P.modulus + w % P.modulus) P.modulus with small | large
      · exact Or.inl (by rwa [Nat.mod_eq_of_lt small] at total)
      · rw [Nat.mod_eq_sub_mod large, Nat.mod_eq_of_lt (by omega)] at total
        omega
    simp only [canonical]
    split <;> split <;> omega

theorem canonical_eq_canonical_iff {v w : Nat} :
    P.canonical v = P.canonical w ↔ P.SameElement v w := by
  refine ⟨fun h => ?_, P.canonical_congr⟩
  have hv := P.sameElement_canonical v
  rw [h] at hv
  exact hv.symm.trans (P.sameElement_canonical w)

/-- The modulus is odd, so a representative is strictly below its half. -/
theorem isCanonical_canonical (v : Nat) : P.IsCanonical (P.canonical v) := by
  have positive := P.one_lt_modulus
  have odd := P.modulus_odd
  have hv := Nat.mod_lt v (show 0 < P.modulus by omega)
  simp only [IsCanonical, canonical]
  split <;> omega

theorem canonical_of_isCanonical {v : Nat} (below : P.IsCanonical v) : P.canonical v = v := by
  simp only [IsCanonical] at below
  simp only [canonical, Nat.mod_eq_of_lt (show v < P.modulus by omega)]
  split <;> omega

theorem SameElement.eq {P : Parameters} {v w : Nat} (h : P.SameElement v w)
    (hv : P.IsCanonical v) (hw : P.IsCanonical w) : v = w := by
  rw [← P.canonical_of_isCanonical hv, P.canonical_congr h, P.canonical_of_isCanonical hw]

theorem squarings_eq (x count : Nat) : P.squarings x count = P.canonical (x ^ 2 ^ count) :=
  P.canonical_congr (.of_mod_eq (Modular.squareTimes_mod P.modulus count x))

theorem sameElement_pow (base exponent : Nat) :
    P.SameElement (Modular.pow P.modulus base exponent) (base ^ exponent) :=
  .of_mod_eq (by rw [Modular.pow_eq, Nat.mod_mod])

theorem sameElement_squarings (x count : Nat) :
    P.SameElement (P.squarings x count) (x ^ 2 ^ count) := by
  rw [squarings_eq]
  exact P.sameElement_canonical _

end DelayChain.Delay.Parameters
