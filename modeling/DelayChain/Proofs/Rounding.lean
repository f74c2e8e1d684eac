import Mathlib.Algebra.Order.Field.Basic
import Mathlib.Algebra.Order.Field.Power
import Mathlib.Data.Rat.Cast.Order
import Mathlib.Tactic.FieldSimp
import Mathlib.Tactic.Linarith
import Mathlib.Tactic.Positivity
import Mathlib.Tactic.Ring
import DelayChain.Difficulty.Binary64

/-!
# Rounding is to nearest

A rounded quotient has a mantissa of fifty-three bits, and no such number is nearer to the quotient. So a
quotient that is such a number is kept, among them every natural number up to two to the fifty-third
power, and the order of two such numbers is that of exponents, then of mantissas.
-/

set_option autoImplicit false
set_option relaxedAutoImplicit false

namespace DelayChain.Difficulty.Binary64

/-- The rational number that is meant. -/
def value (a : Binary64) : ℚ := a.mantissa * 2 ^ a.exponent

/-- The mantissa has fifty-three bits. -/
structure IsNormal (a : Binary64) : Prop where
  least : leastMantissa ≤ a.mantissa
  most : a.mantissa < 2 * leastMantissa

variable {a b : Binary64} {n d : Nat}

private theorem cast_leastMantissa : (leastMantissa : ℚ) = 2 ^ (52 : ℤ) := by
  norm_num [leastMantissa]

private theorem leastMantissa_lt : leastMantissa < 2 * leastMantissa := by decide

private theorem IsNormal.value_lt (normal : a.IsNormal) : a.value < 2 ^ (a.exponent + 53) := by
  have most : (a.mantissa : ℚ) < 2 ^ (53 : ℤ) := by
    have bound : (a.mantissa : ℚ) < 2 * leastMantissa := by exact_mod_cast normal.most
    rw [cast_leastMantissa] at bound
    norm_num at bound ⊢
    exact bound
  rw [value, add_comm, zpow_add₀ (by norm_num)]
  exact mul_lt_mul_of_pos_right most (by positivity)

private theorem IsNormal.le_value (normal : a.IsNormal) : 2 ^ (a.exponent + 52) ≤ a.value := by
  have least : (2 : ℚ) ^ (52 : ℤ) ≤ a.mantissa := by
    rw [← cast_leastMantissa]
    exact_mod_cast normal.least
  rw [value, add_comm, zpow_add₀ (by norm_num)]
  exact mul_le_mul_of_nonneg_right least (by positivity)

private theorem value_lt_of_less (ha : a.IsNormal) (hb : b.IsNormal) (less : Less a b) :
    a.value < b.value := by
  rcases less with below | ⟨same, below⟩
  · have apart : (2 : ℚ) ^ (a.exponent + 53) ≤ 2 ^ (b.exponent + 52) :=
      zpow_le_zpow_right₀ (by norm_num) (by omega)
    linarith only [ha.value_lt, hb.le_value, apart]
  · rw [value, value, same]
    have mantissas : (a.mantissa : ℚ) < b.mantissa := by exact_mod_cast below
    exact mul_lt_mul_of_pos_right mantissas (by positivity)

theorem less_iff_value_lt (ha : a.IsNormal) (hb : b.IsNormal) : Less a b ↔ a.value < b.value := by
  refine ⟨value_lt_of_less ha hb, ?_⟩
  intro below
  by_contra unordered
  have order : Less b a ∨ a = b := by
    obtain ⟨m, e⟩ := a
    obtain ⟨m', e'⟩ := b
    simp only [Less, Binary64.mk.injEq] at unordered ⊢
    omega
  rcases order with above | rfl
  · exact absurd (value_lt_of_less hb ha above) (not_lt.mpr below.le)
  · exact lt_irrefl _ below

private theorem abs_sub_roundDiv_le (positive : 0 < d) : |(n : ℚ) / d - roundDiv n d| ≤ 1 / 2 := by
  have pos : (0 : ℚ) < d := by exact_mod_cast positive
  have below : n % d < d := Nat.mod_lt n positive
  have parts : (n : ℚ) = d * (n / d : ℕ) + (n % d : ℕ) := by exact_mod_cast (Nat.div_add_mod n d).symm
  have quotient : (n : ℚ) / d - (n / d : ℕ) = (n % d : ℕ) / d := by
    rw [sub_eq_iff_eq_add, parts]
    field_simp
    ring
  simp only [roundDiv]
  split
  · next low =>
    have half : 2 * ((n % d : ℕ) : ℚ) ≤ d := by
      have : 2 * (n % d) ≤ d := by omega
      exact_mod_cast this
    rw [quotient, abs_of_nonneg (by positivity), div_le_iff₀ pos]
    linarith
  · next high =>
    have half : (d : ℚ) ≤ 2 * ((n % d : ℕ) : ℚ) := by
      have : d ≤ 2 * (n % d) := by omega
      exact_mod_cast this
    have rest : ((n % d : ℕ) : ℚ) < d := by exact_mod_cast below
    rw [Nat.cast_add, Nat.cast_one, ← sub_sub, quotient, abs_sub_comm,
      abs_of_nonneg (sub_nonneg.mpr ((div_le_one pos).mpr rest.le)), sub_le_comm, le_div_iff₀ pos]
    linarith

private theorem abs_sub_le_of_half {x : ℚ} {m : ℤ} (half : |x - m| ≤ 1 / 2) (k : ℤ) :
    |x - m| ≤ |x - k| := by
  by_cases same : m = k
  · rw [same]
  · have apart : (1 : ℚ) ≤ |(m : ℚ) - k| := by
      exact_mod_cast Int.one_le_abs (sub_ne_zero.mpr same)
    have triangle := abs_sub_le (m : ℚ) x k
    rw [abs_sub_comm (m : ℚ) x] at triangle
    linarith

private theorem two_zpow_pos (e : ℤ) : (0 : ℚ) < 2 ^ e := by positivity

private theorem scaled_div (n d : Nat) (e : ℤ) :
    ((scaled n d e).1 : ℚ) / (scaled n d e).2 = n / d / 2 ^ e := by
  have shifted (k : ℤ) : ((2 : ℚ) ^ k.toNat) = 2 ^ (max k 0) := by
    rw [← zpow_natCast, Int.toNat_eq_max]
  have powers : (2 : ℚ) ^ max e 0 = 2 ^ e * 2 ^ max (-e) 0 := by
    rw [← zpow_add₀ (by norm_num)]
    congr 1
    omega
  rw [scaled, Nat.shiftLeft_eq, Nat.shiftLeft_eq]
  push_cast
  rw [shifted, shifted, powers]
  have := two_zpow_pos e
  have := two_zpow_pos (max (-e) 0)
  field_simp

private theorem scaled_pos (positive : 0 < d) (e : ℤ) : 0 < (scaled n d e).2 := by
  simp only [scaled, Nat.shiftLeft_eq]
  exact Nat.mul_pos positive (Nat.two_pow_pos _)

private theorem log2_bounds (hn : 0 < n) (hd : 0 < d) :
    (2 : ℚ) ^ ((n.log2 : ℤ) - d.log2 - 1) < n / d ∧
      (n : ℚ) / d < 2 ^ ((n.log2 : ℤ) - d.log2 + 1) := by
  have pos : (0 : ℚ) < d := by exact_mod_cast hd
  have least {k : Nat} (hk : 0 < k) : (2 : ℚ) ^ (k.log2 : ℤ) ≤ k := by
    exact_mod_cast Nat.log2_self_le (Nat.ne_of_gt hk)
  have most (k : Nat) : (k : ℚ) < 2 ^ ((k.log2 : ℤ) + 1) := by
    exact_mod_cast Nat.lt_log2_self
  rw [lt_div_iff₀ pos, div_lt_iff₀ pos]
  constructor
  · calc (2 : ℚ) ^ ((n.log2 : ℤ) - d.log2 - 1) * d
        < 2 ^ ((n.log2 : ℤ) - d.log2 - 1) * 2 ^ ((d.log2 : ℤ) + 1) :=
          mul_lt_mul_of_pos_left (most d) (two_zpow_pos _)
      _ = 2 ^ (n.log2 : ℤ) := by
          rw [← zpow_add₀ (by norm_num)]
          congr 1
          ring
      _ ≤ n := least hn
  · calc (n : ℚ) < 2 ^ ((n.log2 : ℤ) + 1) := most n
      _ = 2 ^ ((n.log2 : ℤ) - d.log2 + 1) * 2 ^ (d.log2 : ℤ) := by
          rw [← zpow_add₀ (by norm_num)]
          congr 1
          ring
      _ ≤ 2 ^ ((n.log2 : ℤ) - d.log2 + 1) * d :=
          mul_le_mul_of_nonneg_left (least hd) (two_zpow_pos _).le

private theorem exponentOf_bounds (hn : 0 < n) (hd : 0 < d) :
    2 ^ (exponentOf n d + 52) ≤ (n : ℚ) / d ∧ (n : ℚ) / d < 2 ^ (exponentOf n d + 53) := by
  have positive : (0 : ℚ) < (scaled n d ((n.log2 : ℤ) - d.log2 - 52)).2 := by
    exact_mod_cast scaled_pos hd _
  obtain ⟨least, most⟩ := log2_bounds hn hd
  have guess : (scaled n d ((n.log2 : ℤ) - d.log2 - 52)).1 <
      leastMantissa * (scaled n d ((n.log2 : ℤ) - d.log2 - 52)).2 ↔
        (n : ℚ) / d < 2 ^ ((n.log2 : ℤ) - d.log2 - 52 + 52) := by
    rw [← Nat.cast_lt (α := ℚ), Nat.cast_mul, cast_leastMantissa, ← div_lt_iff₀ positive, scaled_div,
      div_lt_iff₀ (two_zpow_pos _), ← zpow_add₀ (by norm_num), add_comm (52 : ℤ)]
  simp only [exponentOf, guess]
  split
  · next low =>
    refine ⟨?_, ?_⟩
    · refine le_trans (le_of_eq ?_) least.le
      congr 1
      ring
    · refine lt_of_lt_of_eq low ?_
      congr 1
      ring
  · next high =>
    refine ⟨not_lt.mp high, lt_of_lt_of_eq most ?_⟩
    congr 1
    ring

/-- The quotient at its exponent, rounded to an integer. -/
def mantissaOf (n d : Nat) : Nat :=
  roundDiv (scaled n d (exponentOf n d)).1 (scaled n d (exponentOf n d)).2

private theorem abs_sub_mantissaOf_le (hd : 0 < d) :
    |(n : ℚ) / d / 2 ^ exponentOf n d - (mantissaOf n d : ℤ)| ≤ 1 / 2 := by
  rw [← scaled_div]
  exact_mod_cast abs_sub_roundDiv_le (scaled_pos hd _)

private theorem mantissaOf_bounds (hn : 0 < n) (hd : 0 < d) :
    leastMantissa ≤ mantissaOf n d ∧ mantissaOf n d ≤ 2 * leastMantissa := by
  obtain ⟨least, most⟩ := exponentOf_bounds hn hd
  rw [add_comm, zpow_add₀ (by norm_num), ← le_div_iff₀ (two_zpow_pos _)] at least
  rw [add_comm, zpow_add₀ (by norm_num), ← div_lt_iff₀ (two_zpow_pos _)] at most
  obtain ⟨below, above⟩ := abs_le.mp (abs_sub_mantissaOf_le (n := n) hd)
  push_cast at below above
  constructor
  · have bound : (leastMantissa : ℚ) < mantissaOf n d + 1 := by
      rw [cast_leastMantissa]
      linarith
    exact Nat.lt_succ_iff.mp (by exact_mod_cast bound)
  · have bound : (mantissaOf n d : ℚ) < 2 * leastMantissa + 1 := by
      have full : (2 : ℚ) ^ (53 : ℤ) = 2 * 2 ^ (52 : ℤ) := by norm_num
      rw [full] at most
      rw [cast_leastMantissa]
      linarith
    exact Nat.lt_succ_iff.mp (by exact_mod_cast bound)

private theorem isNormal_ofRatio (hn : 0 < n) (hd : 0 < d) : (ofRatio n d).IsNormal := by
  obtain ⟨least, most⟩ := mantissaOf_bounds hn hd
  rw [ofRatio]
  split
  · exact ⟨le_rfl, leastMantissa_lt⟩
  · next other => exact ⟨least, lt_of_le_of_ne most other⟩

private theorem value_ofRatio (n d : Nat) :
    (ofRatio n d).value = mantissaOf n d * 2 ^ exponentOf n d := by
  rw [ofRatio]
  split
  · next full =>
    have mantissa : mantissaOf n d = 2 * leastMantissa := full
    rw [value, mantissa, zpow_add₀ (by norm_num)]
    push_cast
    ring
  · rfl

private theorem abs_sub_value_ofRatio_le_of_multiple (hd : 0 < d) (k : ℤ) :
    |(n : ℚ) / d - (ofRatio n d).value| ≤ |(n : ℚ) / d - k * 2 ^ exponentOf n d| := by
  have positive := two_zpow_pos (exponentOf n d)
  have unit (m : ℤ) : |(n : ℚ) / d - m * 2 ^ exponentOf n d| =
      |(n : ℚ) / d / 2 ^ exponentOf n d - m| * 2 ^ exponentOf n d := by
    rw [← abs_of_pos positive, ← abs_mul, abs_of_pos positive, sub_mul, div_mul_cancel₀ _ positive.ne']
  have mantissa : (mantissaOf n d : ℚ) = (mantissaOf n d : ℤ) := (Int.cast_natCast _).symm
  rw [value_ofRatio, mantissa, unit, unit]
  exact mul_le_mul_of_nonneg_right (abs_sub_le_of_half (abs_sub_mantissaOf_le hd) k) positive.le

private theorem abs_sub_value_ofRatio_le (hn : 0 < n) (hd : 0 < d) (normal : b.IsNormal) :
    |(n : ℚ) / d - (ofRatio n d).value| ≤ |(n : ℚ) / d - b.value| := by
  obtain ⟨least, -⟩ := exponentOf_bounds hn hd
  rcases le_or_gt (exponentOf n d) b.exponent with fine | finer
  · -- the number is a multiple of the last place
    obtain ⟨k, exponent⟩ := Int.le.dest fine
    have multiple : b.value = (b.mantissa * 2 ^ k : ℤ) * 2 ^ exponentOf n d := by
      rw [value, ← exponent, zpow_add₀ (by norm_num), zpow_natCast]
      push_cast
      ring
    rw [multiple]
    exact abs_sub_value_ofRatio_le_of_multiple hd _
  · -- the number is at or below the least one of the exponent, which is a multiple
    have power : (2 : ℚ) ^ (exponentOf n d + 52) = (2 ^ 52 : ℤ) * 2 ^ exponentOf n d := by
      rw [add_comm, zpow_add₀ (by norm_num)]
      norm_num
    have below : b.value ≤ 2 ^ (exponentOf n d + 52) :=
      normal.value_lt.le.trans (zpow_le_zpow_right₀ (by norm_num) (by omega))
    calc |(n : ℚ) / d - (ofRatio n d).value|
        ≤ |(n : ℚ) / d - 2 ^ (exponentOf n d + 52)| := by
          rw [power]
          exact abs_sub_value_ofRatio_le_of_multiple hd _
      _ = (n : ℚ) / d - 2 ^ (exponentOf n d + 52) := abs_of_nonneg (sub_nonneg.mpr least)
      _ ≤ (n : ℚ) / d - b.value := sub_le_sub_left below _
      _ ≤ |(n : ℚ) / d - b.value| := le_abs_self _

private theorem value_ofRatio_of_eq (hn : 0 < n) (hd : 0 < d) (normal : b.IsNormal)
    (same : b.value = n / d) : (ofRatio n d).value = n / d := by
  have nearest := abs_sub_value_ofRatio_le hn hd normal
  rw [same, sub_self, abs_zero] at nearest
  exact (sub_eq_zero.mp (abs_nonpos_iff.mp nearest)).symm

private theorem exists_isNormal_of_le (hn : 0 < n) (most : n ≤ 2 ^ 53) :
    ∃ b : Binary64, b.IsNormal ∧ b.value = n := by
  rcases Nat.lt_or_eq_of_le most with below | rfl
  · have bits : n.log2 ≤ 52 := Nat.lt_succ_iff.mp ((Nat.log2_lt (Nat.ne_of_gt hn)).mpr below)
    obtain ⟨k, shift⟩ := Nat.exists_eq_add_of_le bits
    refine ⟨⟨n * 2 ^ k, -k⟩, ⟨?_, ?_⟩, ?_⟩
    · calc leastMantissa = 2 ^ n.log2 * 2 ^ k := by rw [← Nat.pow_add, ← shift]; rfl
        _ ≤ n * 2 ^ k := Nat.mul_le_mul_right _ (Nat.log2_self_le (Nat.ne_of_gt hn))
    · calc n * 2 ^ k < 2 ^ (n.log2 + 1) * 2 ^ k :=
            Nat.mul_lt_mul_of_pos_right Nat.lt_log2_self (Nat.two_pow_pos k)
        _ = 2 * leastMantissa := by
            rw [← Nat.pow_add, Nat.add_right_comm, ← shift]
            rfl
    · rw [value, zpow_neg, zpow_natCast]
      push_cast
      field_simp
  · refine ⟨⟨leastMantissa, 1⟩, ⟨le_rfl, leastMantissa_lt⟩, ?_⟩
    norm_num [value, leastMantissa]

private theorem value_ofNat (hn : 0 < n) (most : n ≤ 2 ^ 53) : (ofNat n).value = n := by
  obtain ⟨b, normal, same⟩ := exists_isNormal_of_le hn most
  have kept := value_ofRatio_of_eq hn one_pos normal (same.trans (by rw [Nat.cast_one, div_one]))
  rwa [Nat.cast_one, div_one] at kept

private theorem value_ofNat_div (hn : 0 < n) (hd : 0 < d) (mostNum : n ≤ 2 ^ 53)
    (mostDen : d ≤ 2 ^ 53) :
    (ofNat n).value / (ofNat d).value = n / d := by
  rw [value_ofNat hn mostNum, value_ofNat hd mostDen]

theorem isNormal_ofNat (hn : 0 < n) : (ofNat n).IsNormal := isNormal_ofRatio hn one_pos

theorem isNormal_one : one.IsNormal := ⟨le_rfl, leastMantissa_lt⟩

private theorem value_one : one.value = 1 := by norm_num [one, value, leastMantissa]

section Division

variable {c : Binary64}

private theorem IsNormal.mantissa_pos (normal : a.IsNormal) : 0 < a.mantissa :=
  Nat.lt_of_lt_of_le (by decide) normal.least

private theorem div_eq_ofRatio (a b : Binary64) :
    div a b = ofRatio (scaled a.mantissa b.mantissa (b.exponent - a.exponent)).1
      (scaled a.mantissa b.mantissa (b.exponent - a.exponent)).2 := by
  rw [div, scaled, neg_sub]

private theorem scaled_div_eq_value (a b : Binary64) :
    ((scaled a.mantissa b.mantissa (b.exponent - a.exponent)).1 : ℚ) /
      (scaled a.mantissa b.mantissa (b.exponent - a.exponent)).2 = a.value / b.value := by
  rw [scaled_div, value, value, zpow_sub₀ (by norm_num)]
  have := two_zpow_pos a.exponent
  have := two_zpow_pos b.exponent
  field_simp

theorem isNormal_div (ha : a.IsNormal) (hb : b.IsNormal) : (div a b).IsNormal := by
  rw [div_eq_ofRatio]
  refine isNormal_ofRatio ?_ (scaled_pos hb.mantissa_pos _)
  simp only [scaled, Nat.shiftLeft_eq]
  exact Nat.mul_pos ha.mantissa_pos (Nat.two_pow_pos _)

private theorem abs_sub_value_div_le (ha : a.IsNormal) (hb : b.IsNormal) (hc : c.IsNormal) :
    |a.value / b.value - (div a b).value| ≤ |a.value / b.value - c.value| := by
  have positive : 0 < (scaled a.mantissa b.mantissa (b.exponent - a.exponent)).1 := by
    simp only [scaled, Nat.shiftLeft_eq]
    exact Nat.mul_pos ha.mantissa_pos (Nat.two_pow_pos _)
  rw [div_eq_ofRatio, ← scaled_div_eq_value]
  exact abs_sub_value_ofRatio_le positive (scaled_pos hb.mantissa_pos _) hc

private theorem value_div_lt {d : Binary64} (ha : a.IsNormal) (hb : b.IsNormal) (hd : d.IsNormal)
    (below : a.value / b.value < c.value)
    (nearer : |a.value / b.value - d.value| < |a.value / b.value - c.value|) :
    (div a b).value < c.value := by
  have nearest := lt_of_le_of_lt (abs_sub_value_div_le ha hb hd) nearer
  rw [abs_of_neg (sub_neg.mpr below)] at nearest
  have least := neg_le_abs (a.value / b.value - (div a b).value)
  linarith

private theorem lt_value_div {d : Binary64} (ha : a.IsNormal) (hb : b.IsNormal) (hd : d.IsNormal)
    (above : c.value < a.value / b.value)
    (nearer : |a.value / b.value - d.value| < |a.value / b.value - c.value|) :
    c.value < (div a b).value := by
  have nearest := lt_of_le_of_lt (abs_sub_value_div_le ha hb hd) nearer
  rw [abs_of_pos (sub_pos.mpr above)] at nearest
  have least := le_abs_self (a.value / b.value - (div a b).value)
  linarith

end Division

theorem less_clamp_iff {least greatest c : Binary64} (hleast : Less least c) (hgreatest : Less c greatest) :
    (Less c (clamp least greatest a) ↔ Less c a) ∧ (Less (clamp least greatest a) c ↔ Less a c) := by
  unfold clamp
  split
  · next low =>
    simp only [Less] at hleast low ⊢
    omega
  · split
    · next high =>
      simp only [Less] at hgreatest high ⊢
      omega
    · exact ⟨Iff.rfl, Iff.rfl⟩

section One

/-- The greatest number below one. -/
def belowOne : Binary64 := ⟨2 * leastMantissa - 1, -53⟩

/-- The least number above one. -/
def aboveOne : Binary64 := ⟨leastMantissa + 1, -52⟩

private theorem isNormal_belowOne : belowOne.IsNormal := ⟨by decide, by decide⟩

private theorem isNormal_aboveOne : aboveOne.IsNormal := ⟨by decide, by decide⟩

private theorem value_belowOne : belowOne.value = 1 - 1 / 2 ^ 53 := by
  norm_num [belowOne, value, leastMantissa]

private theorem value_aboveOne : aboveOne.value = 1 + 1 / 2 ^ 52 := by
  norm_num [aboveOne, value, leastMantissa]

/-- A proper fraction stays below one: its denominator is too small for it to come nearer to one than the
greatest number below. -/
private theorem value_div_ofNat_lt_one (hn : 0 < n) (less : n < d) (most : d ≤ 2 ^ 53) :
    (div (ofNat n) (ofNat d)).value < one.value := by
  have hd : 0 < d := hn.trans less
  have pos : (0 : ℚ) < d := by exact_mod_cast hd
  have bound : (d : ℚ) ≤ 2 ^ 53 := by exact_mod_cast most
  have step : (n : ℚ) + 1 ≤ d := by exact_mod_cast less
  have quotient : (n : ℚ) / d ≤ 1 - 1 / 2 ^ 53 := by
    have unit : (1 : ℚ) / 2 ^ 53 ≤ 1 / d := one_div_le_one_div_of_le pos bound
    have part : (n : ℚ) / d ≤ 1 - 1 / d := by
      rw [div_le_iff₀ pos, sub_mul, one_mul, div_mul_cancel₀ _ pos.ne']
      linarith
    linarith
  have values := value_ofNat_div hn hd (less.le.trans most) most
  refine value_div_lt (isNormal_ofNat hn) (isNormal_ofNat hd) isNormal_belowOne ?_ ?_
  · rw [values, value_one]
    linarith
  · rw [values, value_one, value_belowOne, abs_sub_comm, abs_sub_comm _ (1 : ℚ),
      abs_of_nonneg (by linarith), abs_of_nonneg (by linarith)]
    linarith

/-- An improper fraction stays above one: it is more than half the way to the least number above. -/
private theorem one_lt_value_div_ofNat (hd : 0 < d) (less : d < n) (most : n ≤ 2 ^ 53) :
    one.value < (div (ofNat n) (ofNat d)).value := by
  have hn : 0 < n := hd.trans less
  have pos : (0 : ℚ) < d := by exact_mod_cast hd
  have bound : (d : ℚ) < 2 ^ 53 := by exact_mod_cast lt_of_lt_of_le less most
  have step : (d : ℚ) + 1 ≤ n := by exact_mod_cast less
  have quotient : 1 + 1 / 2 ^ 53 < (n : ℚ) / d := by
    have unit : (1 : ℚ) / 2 ^ 53 < 1 / d := one_div_lt_one_div_of_lt pos bound
    have part : 1 + 1 / d ≤ (n : ℚ) / d := by
      rw [le_div_iff₀ pos, add_mul, one_mul, div_mul_cancel₀ _ pos.ne']
      linarith
    linarith
  have values := value_ofNat_div hn hd most (less.le.trans most)
  refine lt_value_div (isNormal_ofNat hn) (isNormal_ofNat hd) isNormal_aboveOne ?_ ?_
  · rw [values, value_one]
    linarith
  · rw [values, value_one, value_aboveOne, abs_of_pos (by linarith : (0 : ℚ) < n / d - 1), abs_lt]
    constructor <;> linarith

private theorem value_div_ofNat_self (hn : 0 < n) (most : n ≤ 2 ^ 53) :
    (div (ofNat n) (ofNat n)).value = one.value := by
  have normal := isNormal_ofNat hn
  have nearest := abs_sub_value_div_le normal normal isNormal_one
  rw [value_ofNat_div hn hn most most, div_self (by exact_mod_cast Nat.ne_of_gt hn), ← value_one, sub_self,
    abs_zero] at nearest
  exact (sub_eq_zero.mp (abs_nonpos_iff.mp nearest)).symm

/-- Rounding moves no quotient of two numbers up to two to the fifty-third power to one or past it. -/
theorem value_div_ofNat_lt_one_iff (hn : 0 < n) (hd : 0 < d) (mostNum : n ≤ 2 ^ 53)
    (mostDen : d ≤ 2 ^ 53) :
    ((div (ofNat n) (ofNat d)).value < one.value ↔ n < d) ∧
      (one.value < (div (ofNat n) (ofNat d)).value ↔ d < n) := by
  rcases lt_trichotomy n d with less | rfl | more
  · have below := value_div_ofNat_lt_one hn less mostDen
    exact ⟨iff_of_true below less, iff_of_false below.not_gt less.not_gt⟩
  · have same := value_div_ofNat_self hn mostNum
    exact ⟨iff_of_false (not_lt.mpr same.ge) (lt_irrefl n),
      iff_of_false (not_lt.mpr same.le) (lt_irrefl n)⟩
  · have above := one_lt_value_div_ofNat hd more mostNum
    exact ⟨iff_of_false above.not_gt more.not_gt, iff_of_true above more⟩

end One

end DelayChain.Difficulty.Binary64
