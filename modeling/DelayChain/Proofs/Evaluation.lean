import Mathlib.Logic.Function.Iterate
import DelayChain.Delay.Prover
import DelayChain.Proofs.SignedGroup

/-!
# Evaluation and midpoints agree

The output is squared by a loop of its own, which counts its squarings up and reports the progress; the
midpoints are squared by a recursion that counts down. Both iterate one and the same squaring, so they
agree. The sign that is dropped at the end of some squarings is dropped by the next one anyway, and
without any the representative is taken twice, so squarings add up.
-/

set_option autoImplicit false
set_option relaxedAutoImplicit false

namespace DelayChain

private theorem Modular.squareTimes_eq_iterate (n count x : Nat) :
    squareTimes n count x = (fun y => y * y % n)^[count] x := by
  induction count generalizing x with
  | zero => rfl
  | succ count ih => rw [squareTimes, ih, Function.iterate_succ_apply]

namespace Delay

namespace Evaluation

private theorem value_fold_square (n total count x : Nat) (reports : List Nat) :
    (count.fold (fun index _ => square n total index) ⟨x, reports⟩).value =
      Modular.squareTimes n count x := by
  rw [Modular.squareTimes_eq_iterate]
  -- the loop does its last squaring last, the recursion hands the first one down
  induction count with
  | zero => rfl
  | succ count ih => rw [Nat.fold_succ, square, ih, Function.iterate_succ_apply']

end Evaluation

namespace Parameters

variable (P : Parameters)

private theorem value_evaluation (x count : Nat) :
    (P.evaluation x count).value = P.squarings x count := by
  rw [evaluation, squarings, ← Evaluation.value_fold_square P.modulus count count x []]

theorem evaluate_eq_squarings (input : Bytes) :
    P.evaluate input = P.squarings (P.elementOf input) P.time.toNat :=
  P.value_evaluation _ _

private theorem squarings_squarings (x k j : Nat) :
    P.squarings (P.squarings x k) j = P.squarings x (k + j) := by
  rw [squarings_eq, P.squarings_eq x (k + j), Nat.pow_add, Nat.pow_mul]
  exact P.canonical_congr ((P.sameElement_squarings x k).pow (2 ^ j))

/-- The evaluation and the squarings behind a midpoint give one number, the representative of the power,
whether the base is reduced or not. Some squarings of what other squarings give are as many squarings as
both together. -/
theorem squaring_loops_agree (x k j : Nat) :
    (P.evaluation x k).value = P.squarings x k ∧
      P.squarings x k = P.canonical (x ^ 2 ^ k % P.modulus) ∧
      P.squarings (P.squarings x k) j = P.squarings x (k + j) := by
  refine ⟨P.value_evaluation x k, ?_, P.squarings_squarings x k j⟩
  rw [squarings_eq]
  exact P.canonical_congr (.of_mod_eq (Nat.mod_mod _ _).symm)

end Parameters

end Delay

end DelayChain
