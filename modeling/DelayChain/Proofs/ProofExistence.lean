import DelayChain.Proofs.Halving
import DelayChain.Proofs.Jacobi

/-!
# When a proof can be given

The prover stops at the first midpoint that is no residue. For a base prime to the modulus each midpoint
stands for a square, whose symbol is one; but it is the smaller of the square and its negative that is
looked at. Where the modulus is three more than a multiple of four the negative of a square has symbol
minus one, so the prover stops at the first midpoint for which the negative is the smaller.
-/

set_option autoImplicit false
set_option relaxedAutoImplicit false

namespace DelayChain.Delay

private theorem exists_map_eq_ok_iff {ε α β : Type} {result : Except ε α} {f : α → β} :
    (∃ value, result.map f = .ok value) ↔ ∃ value, result = .ok value := by
  cases result <;> simp [Except.map]

private theorem map_eq_error_iff {ε α β : Type} {result : Except ε α} {f : α → β} {failure : ε} :
    result.map f = .error failure ↔ result = .error failure := by
  cases result <;> simp [Except.map]

theorem rounds_of_short {length : Nat} (short : length ≤ 1) : rounds length = 0 := by
  rw [rounds, if_pos short]

theorem rounds_of_long {length : Nat} (long : ¬length ≤ 1) :
    rounds length = rounds (half length) + 1 := by
  rw [rounds, if_neg long]

namespace Claim

variable {P : Parameters} {claim : Claim} {count : Nat}

/-- The midpoint is the negative of the power that it stands for. -/
def Negated (P : Parameters) (claim : Claim) : Prop :=
  claim.midpoint P ≠ claim.base ^ 2 ^ half claim.length % P.modulus

/-- The claim behind some rounds with the true midpoints. -/
def after (P : Parameters) (claim : Claim) : (count : Nat) → Claim
  | 0 => claim
  | count + 1 => (claim.fold P (claim.midpoint P)).after P count

theorem coprime_after (unit : Nat.Coprime claim.base P.modulus) (count : Nat) :
    Nat.Coprime (claim.after P count).base P.modulus := by
  induction count generalizing claim with
  | zero => exact unit
  | succ count ih =>
    have mu : Nat.Coprime (claim.midpoint P) P.modulus :=
      (P.sameElement_squarings _ _).coprime (unit.pow_left _)
    exact ih ((sameElement_fold_base P claim _).coprime ((unit.pow_left _).mul_left mu))

theorem long_after (within : count < rounds claim.length) :
    ¬(claim.after P count).length ≤ 1 := by
  induction count generalizing claim with
  | zero =>
    intro short
    have short : claim.length ≤ 1 := short
    rw [rounds_of_short short] at within
    exact Nat.not_lt_zero _ within
  | succ count ih =>
    by_cases short : claim.length ≤ 1
    · rw [rounds_of_short short] at within
      omega
    · rw [rounds_of_long short] at within
      exact ih (by rw [fold_length]; omega)

/-- The midpoint of a base prime to the modulus is a residue unless the negative of a square is taken for
it where that has another symbol. -/
theorem isResidue_midpoint_iff (unit : Nat.Coprime claim.base P.modulus)
    (long : ¬claim.length ≤ 1) :
    P.IsResidue (claim.midpoint P) ↔ ¬(P.modulus % 4 = 3 ∧ claim.Negated P) := by
  obtain ⟨k, halved⟩ : ∃ k, half claim.length = k + 1 :=
    ⟨half claim.length - 1, by simp only [half]; omega⟩
  have midpoint : claim.midpoint P = P.canonical (claim.base ^ 2 ^ half claim.length) :=
    P.squarings_eq _ _
  have square : jacobiSym (claim.base ^ 2 ^ half claim.length : Nat) P.modulus = 1 := by
    rw [halved, Nat.pow_succ, Nat.pow_mul, Nat.cast_pow]
    refine jacobiSym.sq_one' ?_
    rw [Int.gcd_natCast_natCast]
    exact unit.pow_left _
  have symbol : P.IsResidue (claim.midpoint P) ↔
      jacobiSym (claim.midpoint P) P.modulus = 1 := by
    rw [Parameters.IsResidue, Jacobi.symbol_eq _ P.modulus_odd]
    exact and_iff_right (by rw [midpoint]; exact P.isCanonical_canonical _)
  rw [symbol, Negated, midpoint]
  by_cases kept : P.canonical (claim.base ^ 2 ^ half claim.length) =
      claim.base ^ 2 ^ half claim.length % P.modulus
  · rw [Parameters.jacobiSym_canonical_of_eq kept, square]
    simp [kept]
  · rcases Nat.odd_mod_four_iff.mp P.modulus_odd with one | three
    · rw [(P.sameElement_canonical _).jacobiSym_eq one, square]
      simp [one]
    · rw [Parameters.jacobiSym_canonical_of_ne three kept, square]
      simp [three, kept]

end Claim

variable {P : Parameters}

theorem exists_midpoints_eq_ok_iff (round : Nat) (claim : Claim) :
    (∃ mus, midpoints P round claim = .ok mus) ↔
      ∀ count < rounds claim.length, P.IsResidue ((claim.after P count).midpoint P) := by
  -- the induction is on the length, which every round halves
  induction length : claim.length using Nat.strongRecOn generalizing round claim with
  | ind n ih =>
    subst length
    by_cases short : claim.length ≤ 1
    · rw [midpoints_of_short short, rounds_of_short short]
      simp
    · have shorter : half claim.length < claim.length := by
        simp only [half]
        omega
      have rest := ih (half claim.length) shorter (round + 1) (claim.fold P (claim.midpoint P)) rfl
      rw [midpoints_of_long short, rounds_of_long short, Nat.forall_lt_succ_left]
      by_cases residue : P.IsResidue (claim.midpoint P)
      · rw [if_pos residue, exists_map_eq_ok_iff, rest]
        exact (and_iff_right residue).symm
      · rw [if_neg residue]
        simp [Claim.after, residue]

private theorem midpoints_eq_error_iff (round named : Nat) (claim : Claim) :
    midpoints P round claim = .error (.nonResidue named) ↔
      ∃ failed < rounds claim.length, named = round + failed ∧
        ¬P.IsResidue ((claim.after P failed).midpoint P) ∧
        ∀ earlier < failed, P.IsResidue ((claim.after P earlier).midpoint P) := by
  induction length : claim.length using Nat.strongRecOn generalizing round claim with
  | ind n ih =>
    subst length
    by_cases short : claim.length ≤ 1
    · rw [midpoints_of_short short, rounds_of_short short]
      simp
    · have shorter : half claim.length < claim.length := by
        simp only [half]
        omega
      have rest := ih (half claim.length) shorter (round + 1) (claim.fold P (claim.midpoint P)) rfl
      rw [midpoints_of_long short, rounds_of_long short, Nat.exists_lt_succ_left]
      by_cases residue : P.IsResidue (claim.midpoint P)
      · have moved : midpoints P (round + 1) (claim.fold P (claim.midpoint P)) =
            .error (.nonResidue named) ↔
            ∃ failed < rounds (half claim.length), named = round + (failed + 1) ∧
              ¬P.IsResidue ((claim.after P (failed + 1)).midpoint P) ∧
              ∀ earlier < failed + 1, P.IsResidue ((claim.after P earlier).midpoint P) := by
          rw [rest]
          simp only [Nat.forall_lt_succ_left, Claim.after, residue, true_and, Nat.add_assoc,
            Nat.add_comm 1]
        rw [if_pos residue, map_eq_error_iff, moved]
        simp [Claim.after, residue]
      · rw [if_neg residue]
        have later : ∀ failed, ¬∀ earlier < failed + 1,
            P.IsResidue ((claim.after P earlier).midpoint P) :=
          fun failed before => residue (before 0 (Nat.succ_pos failed))
        simp only [later, and_false, exists_false, or_false, Except.error.injEq,
          ProvingError.nonResidue.injEq]
        simp [Claim.after, residue, eq_comm]

/-- On an element prime to the modulus a proof is given exactly if the modulus is one more than a multiple
of four or no midpoint on the way is negated. Otherwise the prover names the first round that negates
its midpoint. -/
theorem prove_on_units (P : Parameters) (now : Int64) {input : Bytes}
    (unit : Nat.Coprime (P.elementOf input) P.modulus) :
    let claim := P.claim input (P.evaluate input)
    ((∃ proof, prove P now input = .ok proof) ↔
      P.modulus % 4 = 1 ∨ ∀ count < rounds P.time.toNat, ¬(claim.after P count).Negated P) ∧
    ∀ failed, prove P now input = .error (.nonResidue failed) ↔
      P.modulus % 4 = 3 ∧ failed < rounds P.time.toNat ∧ (claim.after P failed).Negated P ∧
        ∀ earlier < failed, ¬(claim.after P earlier).Negated P := by
  intro claim
  have residue : ∀ count < rounds P.time.toNat,
      (P.IsResidue ((claim.after P count).midpoint P) ↔
        ¬(P.modulus % 4 = 3 ∧ (claim.after P count).Negated P)) := by
    intro count within
    exact Claim.isResidue_midpoint_iff (Claim.coprime_after unit count) (Claim.long_after within)
  have forms : P.modulus % 4 = 1 ↔ ¬P.modulus % 4 = 3 := by
    have := P.modulus_odd
    omega
  constructor
  · have given : (∃ proof, prove P now input = .ok proof) ↔
        ∃ mus, midpoints P 0 claim = .ok mus := exists_map_eq_ok_iff
    rw [given, exists_midpoints_eq_ok_iff, forms]
    constructor
    · intro all
      by_cases form : P.modulus % 4 = 3
      · right
        intro count within negated
        exact (residue count within).mp (all count within) ⟨form, negated⟩
      · exact Or.inl form
    · rintro (one | kept) count within
      · exact (residue count within).mpr fun both => one both.1
      · exact (residue count within).mpr fun both => kept count within both.2
  · intro failed
    have refused : prove P now input = .error (.nonResidue failed) ↔
        midpoints P 0 claim = .error (.nonResidue failed) := map_eq_error_iff
    rw [refused, midpoints_eq_error_iff]
    constructor
    · rintro ⟨round, within, named, none, before⟩
      obtain rfl : failed = round := by omega
      obtain ⟨form, negated⟩ := not_not.mp (mt (residue failed within).mpr none)
      refine ⟨form, within, negated, ?_⟩
      intro earlier least sign
      exact (residue earlier (least.trans within)).mp (before earlier least) ⟨form, sign⟩
    · rintro ⟨form, within, negated, before⟩
      refine ⟨failed, within, (Nat.zero_add failed).symm, ?_, ?_⟩
      · intro first
        exact (residue failed within).mp first ⟨form, negated⟩
      · intro earlier least
        exact (residue earlier (least.trans within)).mpr fun both => before earlier least both.2

/-- The parameters admit a modulus that is three more than a multiple of four. The third midpoint of five
squarings is negated there, for an element prime to the modulus. -/
theorem prove_fails_on_unit :
    let P : Parameters :=
      { Parameters.rehearsal 5 with
        modulus := 0x1fffffffffffffff * 0x1ffffffffffffffffffffe1
        one_lt_modulus := by decide
        modulus_odd := by decide }
    let input := Bytes.ofText "abc"
    Nat.Coprime (P.elementOf input) P.modulus ∧
      (¬∃ proof, prove P 0 input = .ok proof) ∧ prove P 0 input = .error (.nonResidue 2) ∧
      ((P.claim input (P.evaluate input)).after P 2).Negated P := by
  intro P input
  have unit : Nat.Coprime (P.elementOf input) P.modulus := by
    unfold Nat.Coprime
    decide +kernel
  have failed : prove P 0 input = .error (.nonResidue 2) := by decide +kernel
  obtain ⟨form, within, negated, -⟩ := ((prove_on_units P 0 unit).2 2).mp failed
  refine ⟨unit, ?_, failed, negated⟩
  rw [(prove_on_units P 0 unit).1]
  rintro (one | kept)
  · omega
  · exact kept 2 within negated

end DelayChain.Delay
