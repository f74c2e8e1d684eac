import Mathlib.NumberTheory.LegendreSymbol.JacobiSymbol
import DelayChain.Proofs.SignedGroup

/-!
# The binary algorithm computes the Jacobi symbol

Every round keeps the product of the sign found so far and the symbol that is left, by the
supplementary law for two and by reciprocity. A number with symbol one is thus prime to the modulus.
The sign of a number makes no difference where the modulus is one more than a multiple of four, and
turns the symbol round where it is three more.
-/

set_option autoImplicit false
set_option relaxedAutoImplicit false

namespace DelayChain.Delay

namespace Jacobi

variable {a n : Nat}

theorem splitTwos_odd (positive : 0 < a) : (splitTwos a).2 % 2 = 1 := by
  fun_induction splitTwos a with
  | case1 a done => omega
  | case2 a more rest ih => exact ih (by omega)

private theorem twosSign_succ (twos n : Nat) :
    twosSign (twos + 1) n = twosSign 1 n * twosSign twos n := by
  have parity : (twos + 1) % 2 = 1 ↔ ¬twos % 2 = 1 := by omega
  simp only [twosSign, parity]
  by_cases odd : twos % 2 = 1 <;> by_cases class8 : n % 8 = 3 ∨ n % 8 = 5 <;> simp [odd, class8]

private theorem jacobiSym_splitTwos (odd : n % 2 = 1) (a : Nat) :
    jacobiSym a n = twosSign (splitTwos a).1 n * jacobiSym (splitTwos a).2 n := by
  fun_induction splitTwos a with
  | case1 a done => simp [twosSign]
  | case2 a more rest ih =>
    have even : (a : Int) % 2 = 0 := by omega
    have halved : jacobiSym a n = twosSign 1 n * jacobiSym (a / 2 : Nat) n := by
      rw [← jacobiSym.even_odd even odd, Int.natCast_div, Nat.cast_ofNat, twosSign]
      by_cases class8 : n % 8 = 3 ∨ n % 8 = 5 <;> simp [class8]
    calc jacobiSym a n
        = twosSign 1 n * (twosSign rest.1 n * jacobiSym rest.2 n) := by rw [halved, ih]
      _ = twosSign (rest.1 + 1) n * jacobiSym rest.2 n := by rw [twosSign_succ rest.1, mul_assoc]

private theorem jacobiSym_exchange (oddUpper : a % 2 = 1) (oddLower : n % 2 = 1) :
    jacobiSym a n = exchangeSign a n * jacobiSym n a := by
  rw [← jacobiSym.quadratic_reciprocity_if oddUpper oddLower, exchangeSign]
  by_cases classes : a % 4 = 3 ∧ n % 4 = 3 <;> simp [classes]

private theorem jacobiSym_natMod (a n : Nat) : jacobiSym (a % n : Nat) n = jacobiSym a n := by
  rw [Int.natCast_mod, ← jacobiSym.mod_left]

private theorem signed_eq_mul_jacobiSym (sign : Int) (a : Nat) (odd : n % 2 = 1) :
    signed sign a n = sign * jacobiSym a n := by
  -- the induction follows the rounds; the lower number of the next round is the odd part of the upper
  fun_induction signed sign a n with
  | case1 sign => rw [Nat.cast_zero, jacobiSym.one_right, mul_one]
  | case2 sign n other =>
    rw [Nat.cast_zero, jacobiSym.zero_left (by omega), mul_zero]
  | case3 sign a n nonzero twos upper ih =>
    have oddUpper : upper % 2 = 1 := splitTwos_odd (Nat.pos_of_ne_zero nonzero)
    rw [ih oddUpper, jacobiSym_natMod, jacobiSym_splitTwos odd a, jacobiSym_exchange oddUpper odd]
    ring

theorem symbol_eq (a : Nat) (odd : n % 2 = 1) : symbol a n = jacobiSym a n := by
  rw [symbol, signed_eq_mul_jacobiSym 1 _ odd, one_mul, jacobiSym_natMod]

end Jacobi

namespace Parameters

variable {P : Parameters} {v w : Nat}

theorem IsResidue.coprime (residue : P.IsResidue v) : Nat.Coprime v P.modulus := by
  have symbol : jacobiSym v P.modulus = 1 := by
    rw [← Jacobi.symbol_eq v P.modulus_odd]
    exact residue.2
  by_contra shared
  have vanishes : jacobiSym v P.modulus = 0 := by
    refine jacobiSym.eq_zero_iff.mpr ⟨?_, ?_⟩
    · have := P.one_lt_modulus
      omega
    · rwa [Int.gcd_natCast_natCast]
  rw [symbol] at vanishes
  exact one_ne_zero vanishes

private theorem jacobiSym_of_opposite (opposite : (v : ZMod P.modulus) = -(w : ZMod P.modulus)) :
    jacobiSym v P.modulus = ZMod.χ₄ P.modulus * jacobiSym w P.modulus := by
  have negated : jacobiSym v P.modulus = jacobiSym (-w) P.modulus := by
    refine jacobiSym.mod_left' ((ZMod.intCast_eq_intCast_iff' _ _ _).mp ?_)
    rwa [Int.cast_neg, Int.cast_natCast, Int.cast_natCast]
  have odd : Odd P.modulus := Nat.odd_iff.mpr P.modulus_odd
  rw [negated, jacobiSym.neg _ odd]

/-- Minus one has symbol one below such a modulus, so the symbol belongs to the element. -/
theorem SameElement.jacobiSym_eq (form : P.modulus % 4 = 1) (same : P.SameElement v w) :
    jacobiSym v P.modulus = jacobiSym w P.modulus := by
  rcases same with equal | opposite
  · refine jacobiSym.mod_left' ((ZMod.intCast_eq_intCast_iff' _ _ _).mp ?_)
    rwa [Int.cast_natCast, Int.cast_natCast]
  · rw [jacobiSym_of_opposite opposite, ZMod.χ₄_nat_one_mod_four form, one_mul]

theorem jacobiSym_canonical_of_eq (kept : P.canonical v = v % P.modulus) :
    jacobiSym (P.canonical v) P.modulus = jacobiSym v P.modulus := by
  rw [kept, Jacobi.jacobiSym_natMod]

theorem jacobiSym_canonical_of_ne (form : P.modulus % 4 = 3)
    (negated : P.canonical v ≠ v % P.modulus) :
    jacobiSym (P.canonical v) P.modulus = -jacobiSym v P.modulus := by
  rcases P.sameElement_canonical v with equal | opposite
  · exfalso
    have residues := (ZMod.natCast_eq_natCast_iff' _ _ _).mp equal
    have canonical : 2 * P.canonical v < P.modulus := P.isCanonical_canonical v
    rw [Nat.mod_eq_of_lt (by omega)] at residues
    exact negated residues
  · rw [jacobiSym_of_opposite opposite, ZMod.χ₄_nat_three_mod_four form, neg_one_mul]

end Parameters

end DelayChain.Delay
