/-!
# The Jacobi symbol

The binary algorithm: twos are taken out of the upper number by the supplementary law, then the two
odd numbers change places by quadratic reciprocity and the new upper number is reduced. The upper
number falls in every round, and the symbol is zero unless the last lower number is one.
-/

set_option autoImplicit false
set_option relaxedAutoImplicit false

namespace DelayChain.Delay.Jacobi

/-- The odd part of a positive number, behind the number of twos in it. -/
def splitTwos (a : Nat) : Nat × Nat :=
  if a = 0 ∨ a % 2 = 1 then (0, a)
  else
    let rest := splitTwos (a / 2)
    (rest.1 + 1, rest.2)
termination_by a

theorem splitTwos_pos {a : Nat} (h : 0 < a) : 0 < (splitTwos a).2 := by
  fun_induction splitTwos a with
  | case1 => exact h
  | case2 a hodd rest ih =>
    have : 0 < a / 2 := by omega
    exact ih this

theorem splitTwos_le (a : Nat) : (splitTwos a).2 ≤ a := by
  fun_induction splitTwos a with
  | case1 => exact Nat.le_refl _
  | case2 a hodd rest ih => exact Nat.le_trans ih (Nat.div_le_self a 2)

/-- The sign that a power of two contributes above a lower number. -/
def twosSign (twos n : Nat) : Int :=
  if twos % 2 = 1 ∧ (n % 8 = 3 ∨ n % 8 = 5) then -1 else 1

/-- The sign of exchanging two odd numbers. -/
def exchangeSign (a n : Nat) : Int := if a % 4 = 3 ∧ n % 4 = 3 then -1 else 1

/-- The symbol of an upper and an odd lower number, times the sign found so far. -/
def signed (sign : Int) (a n : Nat) : Int :=
  if _h : a = 0 then if n = 1 then sign else 0
  else
    let twos := (splitTwos a).1
    let odd := (splitTwos a).2
    signed (sign * twosSign twos n * exchangeSign odd n) (n % odd) odd
termination_by a
decreasing_by
  have positive := splitTwos_pos (Nat.pos_of_ne_zero _h)
  exact Nat.lt_of_lt_of_le (Nat.mod_lt n positive) (splitTwos_le a)

/-- The Jacobi symbol of a number above an odd number: one, zero or minus one. -/
def symbol (a n : Nat) : Int := signed 1 (a % n) n

end DelayChain.Delay.Jacobi
