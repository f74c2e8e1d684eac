import Mathlib.Data.Int.GCD
import DelayChain.Proofs.Halving
import DelayChain.Proofs.Jacobi

/-!
# What a proof shows of a claimed output

A prover that follows the rounds can start from any output. A round with the true midpoint multiplies
the claimed and the true output by one and the same unit, and at an odd length it squares both first.
So the proof is accepted exactly where the two agree after as many squarings as there are odd lengths
on the way. None is odd where the number of squarings is a power of two; otherwise the output is
unique only where one has no other square root in the group.
-/

set_option autoImplicit false
set_option relaxedAutoImplicit false

namespace DelayChain.Delay

open Parameters (SameElement)

/-- The lengths above one that a claim passes through. -/
def lengths (length : Nat) : List Nat :=
  if length ≤ 1 then [] else length :: lengths (half length)
termination_by length
decreasing_by simp only [half]; omega

/-- The number of odd lengths above one that a claim passes through. -/
def oddRounds (length : Nat) : Nat := (lengths length).countP (· % 2 = 1)

private theorem oddRounds_of_short {length : Nat} (short : length ≤ 1) : oddRounds length = 0 := by
  rw [oddRounds, lengths, if_pos short, List.countP_nil]

private theorem oddRounds_of_long {length : Nat} (long : ¬length ≤ 1) :
    oddRounds length = oddRounds (half length) + length % 2 := by
  rw [oddRounds, lengths, if_neg long, List.countP_cons, oddRounds]
  rcases Nat.mod_two_eq_zero_or_one length with even | odd
  · simp [even]
  · simp [odd]

theorem oddRounds_eq_zero_iff {length : Nat} (positive : 1 ≤ length) :
    oddRounds length = 0 ↔ ∃ e, length = 2 ^ e := by
  induction length using Nat.strongRecOn with
  | ind length ih =>
    by_cases short : length ≤ 1
    · have one : length = 2 ^ 0 := by omega
      exact ⟨fun _ => ⟨0, one⟩, fun _ => oddRounds_of_short short⟩
    · rw [oddRounds_of_long short, Nat.add_eq_zero_iff,
        ih (half length) (by simp only [half]; omega) (by simp only [half]; omega)]
      constructor
      · rintro ⟨⟨e, power⟩, even⟩
        refine ⟨e + 1, ?_⟩
        simp only [half] at power
        rw [Nat.pow_succ]
        omega
      · rintro ⟨e, power⟩
        cases e with
        | zero => omega
        | succ e =>
          rw [Nat.pow_succ] at power
          refine ⟨⟨e, ?_⟩, by omega⟩
          simp only [half]
          omega

namespace Claim

variable {P : Parameters} {claim : Claim}

private theorem coprime_midpoint_pow (residue : P.IsResidue (claim.midpoint P)) (k : Nat) :
    Nat.Coprime (claim.midpoint P ^ k) P.modulus := residue.coprime.pow_left k

private theorem holdsAfter_fold_iff {extra : Nat} (residue : P.IsResidue (claim.midpoint P)) :
    (claim.fold P (claim.midpoint P)).HoldsAfter P extra ↔
      claim.HoldsAfter P (extra + claim.length % 2) := by
  refine ⟨fun holds => ?_, HoldsAfter.fold⟩
  have output := sameElement_fold_output_pow P claim (claim.midpoint P) extra
  have base := sameElement_fold_base_pow P claim extra
  -- the midpoint is prime to the modulus, so its power cancels
  exact SameElement.of_mul_left (coprime_midpoint_pow residue _)
    (output.symm.trans (SameElement.trans holds base))

private theorem holdsAfter_zero_iff (canonical : P.IsCanonical claim.output) (one : claim.length = 1) :
    claim.HoldsAfter P 0 ↔ P.canonical (claim.base * claim.base) = claim.output := by
  have square : claim.HoldsAfter P 0 ↔ P.SameElement claim.output (claim.base * claim.base) := by
    rw [HoldsAfter, one, Nat.pow_zero, Nat.pow_one, Nat.add_zero, Nat.pow_one, Nat.pow_two]
  rw [square, ← P.canonical_eq_canonical_iff, P.canonical_of_isCanonical canonical]
  exact eq_comm

end Claim

private theorem replay_eq_ok_iff_holdsAfter {P : Parameters} {round index : Nat} {claim : Claim}
    {mus : List Nat} (found : midpoints P round claim = .ok mus)
    (canonical : P.IsCanonical claim.output) (positive : 1 ≤ claim.length) :
    replay P index claim mus = .ok () ↔ claim.HoldsAfter P (oddRounds claim.length) := by
  -- the induction is on the length; each odd one hands a squaring on to the folded claim
  induction length : claim.length using Nat.strongRecOn generalizing round index claim mus with
  | ind n ih =>
    subst length
    by_cases short : claim.length ≤ 1
    · rw [midpoints_of_short short] at found
      cases found
      have one : claim.length = 1 := by omega
      rw [oddRounds_of_short short, Claim.holdsAfter_zero_iff canonical one, replay,
        if_neg (by omega)]
      by_cases square : P.canonical (claim.base * claim.base) = claim.output
      · simp only [square, if_true]
      · simp only [square, if_false, reduceCtorEq]
    · obtain ⟨residue, rest, tail, rfl⟩ := exists_of_midpoints_eq_ok short found
      rw [replay_cons_of_isResidue short residue, oddRounds_of_long short,
        ← Claim.holdsAfter_fold_iff residue]
      refine ih (half claim.length) ?_ tail (Claim.isCanonical_fold_output P claim _) ?_ rfl
      · simp only [half]
        omega
      · simp only [Claim.fold_length, half]
        omega

variable {P : Parameters} {input : Bytes} {output : Nat} {mus : List Nat}

theorem verify_eq_ok_iff_replay {proof : Proof} (time : proof.time = P.time) :
    verify P input proof = .ok () ↔
      P.IsCanonical proof.output ∧
        replay P 0 (P.claim input proof.output) proof.midpoints = .ok () := by
  rw [verify, if_neg (not_not.mpr time)]
  by_cases canonical : P.IsCanonical proof.output
  · simp only [canonical, not_true_eq_false, if_false, true_and]
  · simp only [canonical, not_false_eq_true, if_true, reduceCtorEq, false_and]

private theorem holdsAfter_claim_iff (extra : Nat) :
    (P.claim input output).HoldsAfter P extra ↔
      P.SameElement (output ^ 2 ^ extra) (P.evaluate input ^ 2 ^ extra) := by
  have truth := (holds_claim_evaluate P input).holdsAfter extra
  exact ⟨fun holds => holds.trans (SameElement.symm truth), fun same => same.trans truth⟩

theorem verify_iff_sameElement (found : midpoints P 0 (P.claim input output) = .ok mus)
    (now : Int64) :
    verify P input ⟨output, mus, P.time, now⟩ = .ok () ↔
      P.IsCanonical output ∧
        P.SameElement (output ^ 2 ^ oddRounds P.time.toNat)
          (P.evaluate input ^ 2 ^ oddRounds P.time.toNat) := by
  rw [verify_eq_ok_iff_replay rfl, ← holdsAfter_claim_iff]
  refine and_congr_right fun canonical => ?_
  exact replay_eq_ok_iff_holdsAfter found canonical P.time_pos

theorem isCanonical_evaluate (P : Parameters) (input : Bytes) : P.IsCanonical (P.evaluate input) :=
  P.isCanonical_canonical _

/-- An output with the midpoints given for it is accepted exactly where it agrees with the true
output, up to the sign, after one squaring for each odd length on the way. -/
theorem verify_claimed_output_iff (canonical : P.IsCanonical output)
    (found : midpoints P 0 (P.claim input output) = .ok mus) (now : Int64) :
    (verify P input ⟨output, mus, P.time, now⟩ = .ok () ↔
      P.SameElement (output ^ 2 ^ oddRounds P.time.toNat)
        (P.evaluate input ^ 2 ^ oddRounds P.time.toNat)) ∧
    ((∃ e, P.time.toNat = 2 ^ e) →
      (verify P input ⟨output, mus, P.time, now⟩ = .ok () ↔ output = P.evaluate input)) := by
  have accepted := verify_iff_sameElement found now
  simp only [canonical, true_and] at accepted
  refine ⟨accepted, fun power => ?_⟩
  have none : oddRounds P.time.toNat = 0 := (oddRounds_eq_zero_iff P.time_pos).mpr power
  rw [accepted, none, Nat.pow_zero, Nat.pow_one, Nat.pow_one]
  constructor
  · intro same
    exact same.eq canonical (isCanonical_evaluate P input)
  · rintro rfl
    exact .refl P _

/-- Three squarings pass through one odd length, and an output is accepted that is not the true one. -/
theorem verify_claimed_output_three_squarings :
    let P : Parameters := .rehearsal 3
    let input := Bytes.ofText "abc"
    ∃ output mus, P.IsCanonical output ∧ midpoints P 0 (P.claim input output) = .ok mus ∧
      output ≠ P.evaluate input ∧
        (verify P input ⟨output, mus, P.time, 0⟩ = .ok () ↔
          P.SameElement (output ^ 2 ^ oddRounds P.time.toNat)
            (P.evaluate input ^ 2 ^ oddRounds P.time.toNat)) ∧
        verify P input ⟨output, mus, P.time, 0⟩ = .ok () := by
  intro P input
  let output : Nat := 670389242098633113405545150513934249340433663
  let mus : List Nat :=
    [266615650435874340283642186037693050307434736, 592524965813449864399921724343780511066937108]
  have canonical : P.IsCanonical output := by decide
  have found : midpoints P 0 (P.claim input output) = .ok mus := by decide +kernel
  have other : output ≠ P.evaluate input := by decide +kernel
  have criterion := (verify_claimed_output_iff canonical found 0).1
  have same : P.SameElement (output ^ 2 ^ oddRounds P.time.toNat)
      (P.evaluate input ^ 2 ^ oddRounds P.time.toNat) := by
    rw [← P.canonical_eq_canonical_iff]
    decide +kernel
  exact ⟨output, mus, canonical, found, other, criterion, criterion.mpr same⟩

end DelayChain.Delay
