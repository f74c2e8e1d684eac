import Mathlib.Algebra.Ring.Nat
import DelayChain.Modular

/-!
# Powers modulo a number

Repeated squaring computes the residue of the power: `pow_eq` for any exponent, and
`squareTimes_mod` for the exponents that are powers of two.
-/

set_option autoImplicit false
set_option relaxedAutoImplicit false

namespace DelayChain.Modular

theorem pow_eq (n base exponent : Nat) : pow n base exponent = base ^ exponent % n := by
  induction exponent using Nat.strongRecOn generalizing base with
  | ind e ih =>
    rw [pow]
    split
    · next h => subst h; rfl
    · next h =>
      have less : e / 2 < e := Nat.div_lt_self (Nat.pos_of_ne_zero h) (by decide)
      have square : (base * base % n) ^ (e / 2) % n = base ^ (2 * (e / 2)) % n := by
        rw [Nat.pow_mod, Nat.mod_mod, ← Nat.pow_mod, ← Nat.pow_two, ← Nat.pow_mul]
      simp only [ih _ less, square]
      split
      · next odd =>
        have split : e = 2 * (e / 2) + 1 := by omega
        rw [Nat.mul_mod, Nat.mod_mod, ← Nat.mul_mod, Nat.mul_comm, ← Nat.pow_succ,
          Nat.succ_eq_add_one, ← split]
      · next even =>
        have split : e = 2 * (e / 2) := by omega
        rw [← split]

theorem squareTimes_mod (n count x : Nat) : squareTimes n count x % n = x ^ 2 ^ count % n := by
  induction count generalizing x with
  | zero => simp [squareTimes]
  | succ count ih =>
    rw [squareTimes, ih, Nat.pow_mod, Nat.mod_mod, ← Nat.pow_mod, ← Nat.pow_two, ← Nat.pow_mul,
      ← Nat.pow_succ']

end DelayChain.Modular
