import DelayChain.Delay.Verifier
import DelayChain.Proofs.Evaluation

/-!
# Halving

A claim holds when repeated squaring of its base gives its output. A round with the true midpoint
turns a claim that holds into one of half the length that holds, for even and for odd lengths and
for every challenge. Prover and verifier walk through the same claims, so a proof that is given is
accepted.
-/

set_option autoImplicit false
set_option relaxedAutoImplicit false

namespace DelayChain.Delay

open Parameters (SameElement)

namespace Claim

/-- Squaring the base as many times as the length says does give the output. -/
def Holds (P : Parameters) (claim : Claim) : Prop :=
  claim.output = P.squarings claim.base claim.length

/-- The claim holds up to the sign once both sides are squared some more times. -/
def HoldsAfter (P : Parameters) (extra : Nat) (claim : Claim) : Prop :=
  P.SameElement (claim.output ^ 2 ^ extra) (claim.base ^ 2 ^ (claim.length + extra))

/-- The point that halves a claim: the base squared half the length. -/
def midpoint (P : Parameters) (claim : Claim) : Nat := P.squarings claim.base (half claim.length)

variable {P : Parameters} {claim : Claim}

theorem Holds.holdsAfter (holds : claim.Holds P) (extra : Nat) : claim.HoldsAfter P extra := by
  have output : P.SameElement claim.output (claim.base ^ 2 ^ claim.length) := by
    rw [holds]
    exact P.sameElement_squarings _ _
  have squared := output.pow (2 ^ extra)
  rwa [← Nat.pow_mul, ← Nat.pow_add] at squared

private theorem HoldsAfter.holds (canonical : P.IsCanonical claim.output)
    (holds : claim.HoldsAfter P 0) : claim.Holds P := by
  have same : P.SameElement claim.output (claim.base ^ 2 ^ claim.length) := by
    simpa only [HoldsAfter, Nat.pow_zero, Nat.pow_one, Nat.add_zero] using holds
  rw [Holds, P.squarings_eq, ← P.canonical_congr same, P.canonical_of_isCanonical canonical]

private theorem double_half (length : Nat) : half length + half length = length + length % 2 := by
  simp only [half]
  omega

theorem isCanonical_fold_output (P : Parameters) (claim : Claim) (mu : Nat) :
    P.IsCanonical (claim.fold P mu).output := P.isCanonical_canonical _

theorem sameElement_fold_base (P : Parameters) (claim : Claim) (mu : Nat) :
    P.SameElement (claim.fold P mu).base (claim.base ^ claim.challenge P mu * mu) :=
  (P.sameElement_canonical _).trans ((P.sameElement_pow _ _).mul (.refl P mu))

private theorem sameElement_fold_output (P : Parameters) (claim : Claim) (mu : Nat) :
    P.SameElement (claim.fold P mu).output
      (mu ^ claim.challenge P mu * claim.output ^ 2 ^ (claim.length % 2)) := by
  refine (P.sameElement_canonical _).trans ((P.sameElement_pow _ _).mul ?_)
  split
  · next odd =>
    rw [odd, Nat.pow_one, Nat.pow_two]
    exact .of_mod_eq (Nat.mod_mod _ _)
  · next even =>
    have zero : claim.length % 2 = 0 := by omega
    rw [zero, Nat.pow_zero, Nat.pow_one]
    exact .refl P _

theorem sameElement_fold_output_pow (P : Parameters) (claim : Claim) (mu extra : Nat) :
    P.SameElement ((claim.fold P mu).output ^ 2 ^ extra)
      (mu ^ (claim.challenge P mu * 2 ^ extra) *
        claim.output ^ 2 ^ (extra + claim.length % 2)) := by
  have folded := (sameElement_fold_output P claim mu).pow (2 ^ extra)
  rwa [Nat.mul_pow, ← Nat.pow_mul, ← Nat.pow_mul, ← Nat.pow_add, Nat.add_comm _ extra] at folded

theorem sameElement_fold_base_pow (P : Parameters) (claim : Claim) (extra : Nat) :
    P.SameElement ((claim.fold P (claim.midpoint P)).base ^ 2 ^ (half claim.length + extra))
      (claim.midpoint P ^ (claim.challenge P (claim.midpoint P) * 2 ^ extra) *
        claim.base ^ 2 ^ (claim.length + (extra + claim.length % 2))) := by
  have mu : P.SameElement (claim.midpoint P) (claim.base ^ 2 ^ half claim.length) :=
    P.sameElement_squarings _ _
  have folded := sameElement_fold_base P claim (claim.midpoint P)
  generalize claim.challenge P (claim.midpoint P) = r at folded ⊢
  generalize claim.midpoint P = m at mu folded ⊢
  have first : (claim.base ^ 2 ^ half claim.length) ^ (r * 2 ^ extra) =
      (claim.base ^ r) ^ 2 ^ (half claim.length + extra) := by
    rw [← Nat.pow_mul, ← Nat.pow_mul, Nat.pow_add]
    congr 1
    ring
  have second : (claim.base ^ 2 ^ half claim.length) ^ 2 ^ (half claim.length + extra) =
      claim.base ^ 2 ^ (claim.length + (extra + claim.length % 2)) := by
    rw [← Nat.pow_mul, ← Nat.pow_add]
    congr 2
    have := double_half claim.length
    omega
  have power := folded.pow (2 ^ (half claim.length + extra))
  rw [Nat.mul_pow, ← first] at power
  have halves := (mu.symm.pow (r * 2 ^ extra)).mul (mu.pow (2 ^ (half claim.length + extra)))
  rw [second] at halves
  exact power.trans halves

/-- A round with the true midpoint keeps a claim true, whatever the challenge is. An odd length takes
up one of the squarings. -/
theorem HoldsAfter.fold {extra : Nat} (holds : claim.HoldsAfter P (extra + claim.length % 2)) :
    (claim.fold P (claim.midpoint P)).HoldsAfter P extra := by
  have output := sameElement_fold_output_pow P claim (claim.midpoint P) extra
  have base := sameElement_fold_base_pow P claim extra
  exact output.trans (((SameElement.refl P _).mul holds).trans base.symm)

theorem Holds.fold (holds : claim.Holds P) : (claim.fold P (claim.midpoint P)).Holds P :=
  HoldsAfter.holds (isCanonical_fold_output P claim _) (holds.holdsAfter _).fold

end Claim

theorem midpoints_of_short {P : Parameters} {round : Nat} {claim : Claim}
    (short : claim.length ≤ 1) : midpoints P round claim = .ok [] := by
  rw [midpoints, if_pos short]

theorem midpoints_of_long {P : Parameters} {round : Nat} {claim : Claim}
    (long : ¬claim.length ≤ 1) :
    midpoints P round claim =
      if P.IsResidue (claim.midpoint P) then
        (midpoints P (round + 1) (claim.fold P (claim.midpoint P))).map (claim.midpoint P :: ·)
      else .error (.nonResidue round) := by
  rw [midpoints, if_neg long]
  rfl

theorem exists_of_midpoints_eq_ok {P : Parameters} {round : Nat} {claim : Claim} {mus : List Nat}
    (long : ¬claim.length ≤ 1) (found : midpoints P round claim = .ok mus) :
    P.IsResidue (claim.midpoint P) ∧
      ∃ rest, midpoints P (round + 1) (claim.fold P (claim.midpoint P)) = .ok rest ∧
        mus = claim.midpoint P :: rest := by
  rw [midpoints_of_long long] at found
  split at found
  · next residue =>
    refine ⟨residue, ?_⟩
    cases tail : midpoints P (round + 1) (claim.fold P (claim.midpoint P)) with
    | error failure =>
      rw [tail] at found
      exact nomatch found
    | ok rest =>
      rw [tail] at found
      exact ⟨rest, rfl, (Except.ok.inj found).symm⟩
  · exact nomatch found

theorem replay_cons_of_isResidue {P : Parameters} {index : Nat} {claim : Claim} {mu : Nat}
    (long : ¬claim.length ≤ 1) (residue : P.IsResidue mu) (rest : List Nat) :
    replay P index claim (mu :: rest) = replay P (index + 1) (claim.fold P mu) rest := by
  rw [replay, if_neg long, if_neg (not_not.mpr residue.1), if_neg (not_not.mpr residue)]

private theorem replay_nil_of_holds {P : Parameters} {index : Nat} {claim : Claim}
    (holds : claim.Holds P) (one : claim.length = 1) : replay P index claim [] = .ok () := by
  have square : P.canonical (claim.base * claim.base) = claim.output := by
    rw [holds, one, P.squarings_eq, Nat.pow_one, Nat.pow_two]
  rw [replay, if_neg (by omega), if_pos square]

private theorem replay_of_midpoints_eq_ok {P : Parameters} {round index : Nat} {claim : Claim}
    {mus : List Nat} (found : midpoints P round claim = .ok mus) (holds : claim.Holds P)
    (positive : 1 ≤ claim.length) : replay P index claim mus = .ok () := by
  -- the induction is on the length, which every round halves; the folded claim holds again
  induction length : claim.length using Nat.strongRecOn generalizing round index claim mus with
  | ind n ih =>
    by_cases short : claim.length ≤ 1
    · rw [midpoints_of_short short] at found
      cases found
      exact replay_nil_of_holds holds (by omega)
    · obtain ⟨residue, rest, tail, rfl⟩ := exists_of_midpoints_eq_ok short found
      rw [replay_cons_of_isResidue short residue]
      refine ih (half claim.length) ?_ tail holds.fold ?_ rfl
      · simp only [half]; omega
      · simp only [Claim.fold_length, half]; omega

theorem holds_claim_evaluate (P : Parameters) (input : Bytes) :
    (P.claim input (P.evaluate input)).Holds P := P.evaluate_eq_squarings input

theorem exists_of_prove_eq_ok {P : Parameters} {now : Int64} {input : Bytes} {proof : Proof}
    (proved : prove P now input = .ok proof) :
    ∃ mus, midpoints P 0 (P.claim input (P.evaluate input)) = .ok mus ∧
      proof = ⟨P.evaluate input, mus, P.time, now⟩ := by
  rw [prove] at proved
  cases found : midpoints P 0 (P.claim input (P.evaluate input)) with
  | error failure =>
    rw [found] at proved
    exact nomatch proved
  | ok mus =>
    rw [found] at proved
    exact ⟨mus, rfl, (Except.ok.inj proved).symm⟩

theorem verify_of_midpoints_eq_ok {P : Parameters} {input : Bytes} {mus : List Nat}
    (found : midpoints P 0 (P.claim input (P.evaluate input)) = .ok mus) (now : Int64) :
    verify P input ⟨P.evaluate input, mus, P.time, now⟩ = .ok () := by
  have canonical : P.IsCanonical (P.evaluate input) := P.isCanonical_canonical _
  rw [verify, if_neg (not_not.mpr rfl), if_neg (not_not.mpr canonical)]
  exact replay_of_midpoints_eq_ok found (holds_claim_evaluate P input) P.time_pos

/-- Every proof that is given is accepted. -/
theorem verify_of_prove_eq_ok {P : Parameters} {now : Int64} {input : Bytes} {proof : Proof}
    (proved : prove P now input = .ok proof) : verify P input proof = .ok () := by
  obtain ⟨mus, found, rfl⟩ := exists_of_prove_eq_ok proved
  exact verify_of_midpoints_eq_ok found now

/-- Five squarings pass through the lengths five, three, two and one. -/
theorem verify_of_prove_five_squarings :
    ∃ proof : Proof,
      prove (.rehearsal 5) 0 (Bytes.ofText "abc") = .ok proof ∧
        proof.midpoints.length = 3 ∧
        verify (.rehearsal 5) (Bytes.ofText "abc") proof = .ok () := by
  let proof : Proof :=
    { output := 293057925139238725475189229128178734863338806
      midpoints :=
        [6452540308356166545860170764852135422027181,
         698062531392971546565790848285871636036085570,
         328325001744747753801469991470171755227523080]
      time := 5
      createdAt := 0 }
  have proved : prove (.rehearsal 5) 0 (Bytes.ofText "abc") = .ok proof := by decide +kernel
  exact ⟨proof, proved, rfl, verify_of_prove_eq_ok proved⟩

end DelayChain.Delay
