import Mathlib.Data.Nat.ChineseRemainder
import DelayChain.Proofs.ClaimedOutput
import DelayChain.Proofs.ProofExistence

/-!
# When the output is unique

Where the modulus is one more than a multiple of four, the prover finds midpoints for any output of
an input prime to the modulus. An odd length squares the claimed output, and the sign that is dropped
then is not all that is lost: the output stays unique only where one has no square root in the group
but itself. A modulus of two coprime factors has others.
-/

set_option autoImplicit false
set_option relaxedAutoImplicit false

namespace DelayChain.Delay

open Parameters (SameElement)

namespace Parameters

variable {P : Parameters}

/-- One is the only element of the group whose square is one. -/
def OneRoot (P : Parameters) : Prop := ∀ root, P.SameElement (root ^ 2) 1 → P.SameElement root 1

/-- No output but the true one is accepted with the midpoints that the prover gives for it. -/
def UniqueOutput (P : Parameters) (input : Bytes) : Prop :=
  ∀ output mus now, midpoints P 0 (P.claim input output) = .ok mus →
    verify P input ⟨output, mus, P.time, now⟩ = .ok () → output = P.evaluate input

private theorem exists_inverse {a : Nat} (unit : Nat.Coprime a P.modulus) :
    ∃ b, P.SameElement (a * b) 1 := by
  obtain ⟨b, -, product⟩ := Nat.exists_mul_mod_eq_one_of_coprime unit P.one_lt_modulus
  refine ⟨b, .of_mod_eq ?_⟩
  rw [product, Nat.mod_eq_of_lt P.one_lt_modulus]

private theorem OneRoot.of_sq {a b : Nat} (single : P.OneRoot) (unit : Nat.Coprime b P.modulus)
    (same : P.SameElement (a ^ 2) (b ^ 2)) : P.SameElement a b := by
  obtain ⟨c, inverse⟩ := exists_inverse unit
  have square : P.SameElement ((a * c) ^ 2) 1 := by
    have product := (same.mul (.refl P (c ^ 2))).trans (by
      rw [← Nat.mul_pow]
      exact inverse.pow 2)
    rwa [← Nat.mul_pow, Nat.one_pow] at product
  have quotient := single (a * c) square
  have left : P.SameElement (b * (a * c)) (b * 1) := (SameElement.refl P b).mul quotient
  have right : P.SameElement (a * (b * c)) (a * 1) := (SameElement.refl P a).mul inverse
  rw [Nat.mul_left_comm, Nat.mul_one] at left
  rw [Nat.mul_one] at right
  exact right.symm.trans left

private theorem OneRoot.of_pow {a b : Nat} (single : P.OneRoot) (unit : Nat.Coprime b P.modulus)
    (count : Nat) (same : P.SameElement (a ^ 2 ^ count) (b ^ 2 ^ count)) : P.SameElement a b := by
  induction count with
  | zero => simpa only [Nat.pow_zero, Nat.pow_one] using same
  | succ count ih =>
    rw [Nat.pow_succ, Nat.pow_mul, Nat.pow_mul] at same
    exact ih (single.of_sq (unit.pow_left _) same)

/-- A number that is one modulo the one factor and minus one modulo the other is a second root. -/
private theorem not_oneRoot_of_factors {p q : Nat} (product : P.modulus = p * q) (hp : 1 < p)
    (hq : 1 < q) (coprime : Nat.Coprime p q) : ¬P.OneRoot := by
  intro single
  have odd : Odd (p * q) := product ▸ Nat.odd_iff.mpr P.modulus_odd
  have oddp : p % 2 = 1 := Nat.odd_iff.mp (Nat.odd_mul.mp odd).1
  have oddq : q % 2 = 1 := Nat.odd_iff.mp (Nat.odd_mul.mp odd).2
  obtain ⟨root, modp, modq⟩ := Nat.chineseRemainder coprime 1 (q - 1)
  have square : P.SameElement (root ^ 2) 1 := by
    refine .of_mod_eq ?_
    rw [product]
    refine (Nat.modEq_and_modEq_iff_modEq_mul coprime).mp ⟨?_, ?_⟩
    · exact modp.pow 2
    · refine (modq.pow 2).trans ?_
      obtain ⟨d, rfl⟩ : ∃ d, q = d + 2 := ⟨q - 2, by omega⟩
      rw [Nat.modEq_iff_dvd]
      exact ⟨-d, by push_cast; ring⟩
  rcases single root square with plus | minus
  · have all : root ≡ 1 [MOD p * q] := by
      rw [← product, ← ZMod.natCast_eq_natCast_iff]
      exact plus
    obtain ⟨-, one⟩ := (Nat.modEq_and_modEq_iff_modEq_mul coprime).mpr all
    have both : 1 ≡ q - 1 [MOD q] := one.symm.trans modq
    rw [Nat.ModEq, Nat.mod_eq_of_lt hq, Nat.mod_eq_of_lt (by omega)] at both
    omega
  · have divides : p * q ∣ root + 1 := by
      rw [← product, ← ZMod.natCast_eq_zero_iff]
      push_cast
      rw [minus]
      simp
    have two : p ∣ 1 + 1 := (Nat.ModEq.dvd_iff (modp.add_right 1) dvd_rfl).mp
      ((dvd_mul_right p q).trans divides)
    have := Nat.le_of_dvd (by omega) two
    omega

end Parameters

variable {P : Parameters} {input : Bytes}

theorem exists_midpoints_eq_ok (form : P.modulus % 4 = 1) {claim : Claim}
    (unit : Nat.Coprime claim.base P.modulus) (round : Nat) :
    ∃ mus, midpoints P round claim = .ok mus := by
  rw [exists_midpoints_eq_ok_iff]
  intro count within
  rw [Claim.isResidue_midpoint_iff (Claim.coprime_after unit count) (Claim.long_after within)]
  omega

private theorem coprime_evaluate (unit : Nat.Coprime (P.elementOf input) P.modulus) :
    Nat.Coprime (P.evaluate input) P.modulus := by
  rw [P.evaluate_eq_squarings]
  exact (P.sameElement_squarings _ _).coprime (unit.pow_left _)

private theorem uniqueOutput_of_power {e : Nat} (power : P.time.toNat = 2 ^ e) :
    P.UniqueOutput input := by
  intro output mus now found accepted
  obtain ⟨canonical, same⟩ := (verify_iff_sameElement found now).mp accepted
  rw [(oddRounds_eq_zero_iff P.time_pos).mpr ⟨e, power⟩, Nat.pow_zero, Nat.pow_one,
    Nat.pow_one] at same
  exact same.eq canonical (isCanonical_evaluate P input)

private theorem uniqueOutput_of_oneRoot (unit : Nat.Coprime (P.elementOf input) P.modulus)
    (single : P.OneRoot) : P.UniqueOutput input := by
  intro output mus now found accepted
  obtain ⟨canonical, same⟩ := (verify_iff_sameElement found now).mp accepted
  have element := single.of_pow (coprime_evaluate unit) _ same
  exact element.eq canonical (isCanonical_evaluate P input)

private theorem oneRoot_of_uniqueOutput (form : P.modulus % 4 = 1)
    (unit : Nat.Coprime (P.elementOf input) P.modulus) (unique : P.UniqueOutput input)
    (odd : oddRounds P.time.toNat ≠ 0) : P.OneRoot := by
  intro root square
  let output := P.canonical (P.evaluate input * root)
  have proves : ∃ mus, midpoints P 0 (P.claim input output) = .ok mus :=
    exists_midpoints_eq_ok form unit 0
  obtain ⟨mus, found⟩ := proves
  obtain ⟨k, rounds⟩ := Nat.exists_eq_succ_of_ne_zero odd
  have element : P.SameElement output (P.evaluate input * root) := P.sameElement_canonical _
  have same : P.SameElement (output ^ 2 ^ oddRounds P.time.toNat)
      (P.evaluate input ^ 2 ^ oddRounds P.time.toNat) := by
    have power := element.pow (2 ^ oddRounds P.time.toNat)
    have lost : P.SameElement (root ^ 2 ^ oddRounds P.time.toNat) 1 := by
      rw [rounds, Nat.pow_succ, Nat.mul_comm, Nat.pow_mul]
      have further := square.pow (2 ^ k)
      rwa [Nat.one_pow] at further
    rw [Nat.mul_pow] at power
    have rest := (SameElement.refl P (P.evaluate input ^ 2 ^ oddRounds P.time.toNat)).mul lost
    rw [Nat.mul_one] at rest
    exact power.trans rest
  have accepted := (verify_iff_sameElement found 0).mpr ⟨P.isCanonical_canonical _, same⟩
  have equal : output = P.evaluate input := unique output mus 0 found accepted
  rw [equal] at element
  refine SameElement.symm (SameElement.of_mul_left (coprime_evaluate unit) ?_)
  rwa [Nat.mul_one]

/-- The output is unique exactly where the number of squarings is a power of two or one is the only
root of one in the group. For a modulus of two coprime factors only the former remains. -/
theorem uniqueOutput_iff (form : P.modulus % 4 = 1)
    (unit : Nat.Coprime (P.elementOf input) P.modulus) :
    (P.UniqueOutput input ↔ (∃ e, P.time.toNat = 2 ^ e) ∨ P.OneRoot) ∧
      ∀ p q, P.modulus = p * q → 1 < p → 1 < q → Nat.Coprime p q →
        (P.UniqueOutput input ↔ ∃ e, P.time.toNat = 2 ^ e) := by
  have criterion : P.UniqueOutput input ↔ (∃ e, P.time.toNat = 2 ^ e) ∨ P.OneRoot := by
    constructor
    · intro unique
      by_cases none : oddRounds P.time.toNat = 0
      · exact Or.inl ((oddRounds_eq_zero_iff P.time_pos).mp none)
      · exact Or.inr (oneRoot_of_uniqueOutput form unit unique none)
    · rintro (⟨e, power⟩ | single)
      · exact uniqueOutput_of_power power
      · exact uniqueOutput_of_oneRoot unit single
  refine ⟨criterion, ?_⟩
  intro p q product hp hq coprime
  rw [criterion]
  exact or_iff_left (Parameters.not_oneRoot_of_factors product hp hq coprime)

/-- Three is no power of two, so with a modulus of two primes the output is not unique. -/
theorem not_uniqueOutput_three_squarings :
    let P : Parameters := .rehearsal 3
    let input := Bytes.ofText "abc"
    P.modulus % 4 = 1 ∧ Nat.Coprime (P.elementOf input) P.modulus ∧ ¬P.UniqueOutput input := by
  intro P input
  have form : P.modulus % 4 = 1 := by decide
  have unit : Nat.Coprime (P.elementOf input) P.modulus := by
    unfold Nat.Coprime
    decide +kernel
  have factors : Nat.Coprime 0x1fffffffffffffff 0x1ffffffffffffffffffffff := by
    unfold Nat.Coprime
    decide +kernel
  have criterion := (uniqueOutput_iff form unit).2 _ _ rfl (by decide) (by decide) factors
  refine ⟨form, unit, ?_⟩
  rw [criterion]
  rintro ⟨e, power⟩
  have three : P.time.toNat = 3 := rfl
  cases e with
  | zero => omega
  | succ e =>
    rw [three, Nat.pow_succ] at power
    omega

end DelayChain.Delay
