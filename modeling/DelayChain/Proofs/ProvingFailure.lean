import DelayChain.Proofs.UniqueOutput

/-!
# When proving fails

A midpoint shares with the modulus what its base shares with it, so a base that is not prime to the
modulus is stopped in the first round, if there is one. A base prime to the modulus passes the first
round where the modulus is one more than a multiple of four, and with it all later ones.
-/

set_option autoImplicit false
set_option relaxedAutoImplicit false

namespace DelayChain.Delay

variable {P : Parameters} {claim : Claim} {input : Bytes}

private theorem Claim.coprime_of_isResidue_midpoint (residue : P.IsResidue (claim.midpoint P)) :
    Nat.Coprime claim.base P.modulus := by
  have power : Nat.Coprime (claim.base ^ 2 ^ half claim.length) P.modulus :=
    (P.sameElement_squarings _ _).symm.coprime residue.coprime
  exact (Nat.coprime_pow_left_iff (Nat.two_pow_pos _) _ _).mp power

private theorem midpoints_of_not_coprime (long : ¬claim.length ≤ 1)
    (shared : ¬Nat.Coprime claim.base P.modulus) (round : Nat) :
    midpoints P round claim = .error (.nonResidue round) := by
  rw [midpoints_of_long long, if_neg (mt Claim.coprime_of_isResidue_midpoint shared)]

theorem exists_midpoints_of_coprime (form : P.modulus % 4 = 1)
    (unit : Nat.Coprime (P.elementOf input) P.modulus) (output : Nat) :
    ∃ mus, midpoints P 0 (P.claim input output) = .ok mus := by
  refine exists_midpoints_eq_ok form ?_ 0
  rwa [P.base_claim]

private theorem exists_prove_eq_ok {mus : List Nat}
    (found : midpoints P 0 (P.claim input (P.evaluate input)) = .ok mus) (now : Int64) :
    ∃ proof, prove P now input = .ok proof := by
  rw [prove, found]
  exact ⟨_, rfl⟩

private theorem prove_of_not_coprime (long : ¬P.time.toNat ≤ 1)
    (shared : ¬Nat.Coprime (P.elementOf input) P.modulus) (now : Int64) :
    prove P now input = .error (.nonResidue 0) := by
  have stopped : midpoints P 0 (P.claim input (P.evaluate input)) = .error (.nonResidue 0) := by
    apply midpoints_of_not_coprime
    · rwa [P.length_claim]
    · rwa [P.base_claim]
  rw [prove, stopped]
  rfl

/-- Where the modulus is one more than a multiple of four, a proof is given if there is one squaring or the
element is prime to the modulus. Otherwise the prover names the first round, and it never names another. -/
theorem prove_by_first_round (form : P.modulus % 4 = 1) (now : Int64) (input : Bytes) :
    (P.time = 1 → ∃ proof, prove P now input = .ok proof) ∧
    (1 < P.time →
      (Nat.gcd (P.elementOf input) P.modulus = 1 → ∃ proof, prove P now input = .ok proof) ∧
      (Nat.gcd (P.elementOf input) P.modulus ≠ 1 →
        prove P now input = .error (.nonResidue 0))) ∧
    ∀ round, prove P now input = .error (.nonResidue round) → round = 0 := by
  have short : P.time = 1 → ∃ proof, prove P now input = .ok proof := by
    intro one
    have length : P.time.toNat ≤ 1 := by
      rw [one]
      decide
    exact exists_prove_eq_ok (midpoints_of_short length) now
  have given : Nat.Coprime (P.elementOf input) P.modulus →
      ∃ proof, prove P now input = .ok proof := by
    intro unit
    obtain ⟨mus, found⟩ := exists_midpoints_of_coprime form unit (P.evaluate input)
    exact exists_prove_eq_ok found now
  have stopped : ¬P.time.toNat ≤ 1 → ¬Nat.Coprime (P.elementOf input) P.modulus →
      prove P now input = .error (.nonResidue 0) :=
    fun long shared => prove_of_not_coprime long shared now
  refine ⟨short, fun more => ⟨given, stopped (Nat.not_le.mpr more)⟩, ?_⟩
  intro round failed
  -- a failure leaves one of the cases: more than one squaring, and a shared factor
  have refused : ¬∃ proof, prove P now input = .ok proof := by
    rintro ⟨proof, proved⟩
    rw [failed] at proved
    exact nomatch proved
  have long : ¬P.time.toNat ≤ 1 := by
    intro least
    have positive := P.time_pos
    have one : P.time.toNat = 1 := by omega
    exact refused (short (UInt64.toNat.inj one))
  have named := stopped long (mt given refused)
  rw [failed, Except.error.injEq, ProvingError.nonResidue.injEq] at named
  exact named

/-- Modulo 21 the two inputs have the elements two and six, of which only the first is prime to it. -/
theorem prove_by_first_round_of_twenty_one :
    let P : Parameters :=
      { Parameters.rehearsal 4 with
        modulus := 21
        one_lt_modulus := by decide
        modulus_odd := by decide }
    P.modulus % 4 = 1 ∧ 1 < P.time ∧
      Nat.gcd (P.elementOf (Bytes.ofText "abc")) P.modulus = 1 ∧
      (∃ proof, prove P 0 (Bytes.ofText "abc") = .ok proof) ∧
      Nat.gcd (P.elementOf (Bytes.ofText "xyz")) P.modulus ≠ 1 ∧
      prove P 0 (Bytes.ofText "xyz") = .error (.nonResidue 0) := by
  intro P
  have form : P.modulus % 4 = 1 := by decide
  have more : 1 < P.time := by decide
  have unit : Nat.gcd (P.elementOf (Bytes.ofText "abc")) P.modulus = 1 := by decide +kernel
  have shared : Nat.gcd (P.elementOf (Bytes.ofText "xyz")) P.modulus ≠ 1 := by decide +kernel
  obtain ⟨-, cases, -⟩ := prove_by_first_round form 0 (Bytes.ofText "abc")
  obtain ⟨-, cases', -⟩ := prove_by_first_round form 0 (Bytes.ofText "xyz")
  exact ⟨form, more, unit, (cases more).1 unit, shared, (cases' more).2 shared⟩

end DelayChain.Delay
