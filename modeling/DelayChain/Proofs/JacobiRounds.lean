import Mathlib.Logic.Function.Iterate
import DelayChain.Proofs.Jacobi

/-!
# The rounds of the binary algorithm

The algorithm as a machine that goes round by round. A round leaves the upper number below the lower
one and at least halves their product, so there are at most two rounds for each bit of the lower number.
No round changes what the recursion gives on the numbers that are left, and at the end it gives what is
read off the machine. So the machine stops, with the product of Legendre symbols over the prime factors.
-/

set_option autoImplicit false
set_option relaxedAutoImplicit false

namespace DelayChain.Delay.Jacobi

/-- The sign found so far, and the two numbers of the symbol that is left. -/
structure State where
  sign : Int
  upper : Nat
  lower : Nat
  deriving DecidableEq

namespace State

def start (a n : Nat) : State := ⟨1, a % n, n⟩

/-- One round; nothing moves once the upper number is zero. -/
def round (state : State) : State :=
  if state.upper = 0 then state
  else
    let twos := (splitTwos state.upper).1
    let odd := (splitTwos state.upper).2
    { sign := state.sign * twosSign twos state.lower * exchangeSign odd state.lower
      upper := state.lower % odd
      lower := odd }

/-- What is read off at the end. -/
def reading (state : State) : Int := if state.lower = 1 then state.sign else 0

/-- What the recursion gives from here on. -/
def value (state : State) : Int := signed state.sign state.upper state.lower

/-- The lower number is odd, and the upper one is reduced by it. -/
structure Reduced (state : State) : Prop where
  odd : state.lower % 2 = 1
  below : state.upper < state.lower

variable {state : State}

private theorem round_of_ne_zero (more : state.upper ≠ 0) :
    state.round =
      { sign := state.sign * twosSign (splitTwos state.upper).1 state.lower *
          exchangeSign (splitTwos state.upper).2 state.lower
        upper := state.lower % (splitTwos state.upper).2
        lower := (splitTwos state.upper).2 } := by
  rw [round, if_neg more]

private theorem value_of_upper_eq_zero (done : state.upper = 0) : state.value = state.reading := by
  rw [value, signed, dif_pos done, reading]

private theorem value_round (state : State) : state.round.value = state.value := by
  by_cases done : state.upper = 0
  · rw [round, if_pos done]
  · rw [round_of_ne_zero done]
    conv_rhs => rw [value, signed, dif_neg done]
    rfl

private theorem Reduced.round (reduced : state.Reduced) : state.round.Reduced := by
  by_cases done : state.upper = 0
  · rwa [State.round, if_pos done]
  · have positive : 0 < state.upper := Nat.pos_of_ne_zero done
    rw [round_of_ne_zero done]
    exact ⟨splitTwos_odd positive, Nat.mod_lt _ (splitTwos_pos positive)⟩

/-- The odd part of the upper number is below the lower one, so the remainder is less than half of it. -/
private theorem Reduced.two_mul_round_le (reduced : state.Reduced) :
    2 * (state.round.upper * state.round.lower) ≤ state.upper * state.lower := by
  by_cases done : state.upper = 0
  · rw [State.round, if_pos done, done, Nat.zero_mul, Nat.mul_zero]
  · have positive : 0 < (splitTwos state.upper).2 := splitTwos_pos (Nat.pos_of_ne_zero done)
    have odd_le : (splitTwos state.upper).2 ≤ state.upper := splitTwos_le _
    have below := reduced.below
    rw [round_of_ne_zero done]
    generalize (splitTwos state.upper).2 = odd at positive odd_le ⊢
    have remainder : state.lower % odd < odd := Nat.mod_lt _ positive
    have once : state.lower % odd ≤ state.lower - odd := by
      rw [Nat.mod_eq_sub_mod (by omega)]
      exact Nat.mod_le _ _
    have halved : 2 * (state.lower % odd) ≤ state.lower := by omega
    calc 2 * (state.lower % odd * odd)
        = 2 * (state.lower % odd) * odd := (Nat.mul_assoc _ _ _).symm
      _ ≤ state.lower * state.upper := Nat.mul_le_mul halved odd_le
      _ = state.upper * state.lower := Nat.mul_comm _ _

variable {count : Nat}

private theorem value_rounds (state : State) (count : Nat) :
    (round^[count] state).value = state.value := by
  induction count with
  | zero => rfl
  | succ count ih => rw [Function.iterate_succ_apply', value_round, ih]

private theorem Reduced.rounds (reduced : state.Reduced) (count : Nat) :
    (State.round^[count] state).Reduced := by
  induction count with
  | zero => exact reduced
  | succ count ih =>
    rw [Function.iterate_succ_apply']
    exact ih.round

private theorem Reduced.pow_mul_rounds_le (reduced : state.Reduced) (count : Nat) :
    2 ^ count * ((State.round^[count] state).upper * (State.round^[count] state).lower) ≤
      state.upper * state.lower := by
  induction count with
  | zero => exact (Nat.one_mul _).le
  | succ count ih =>
    rw [Function.iterate_succ_apply', Nat.pow_succ, Nat.mul_assoc]
    exact (Nat.mul_le_mul_left _ (reduced.rounds count).two_mul_round_le).trans ih

/-- The product of the two numbers falls below one before the rounds are used up. -/
private theorem Reduced.upper_rounds_eq_zero (reduced : state.Reduced)
    (enough : state.upper * state.lower < 2 ^ count) : (State.round^[count] state).upper = 0 := by
  by_contra more
  have positive : 0 < (State.round^[count] state).lower :=
    Nat.zero_lt_of_lt (reduced.rounds count).below
  have one_le : 1 ≤ (State.round^[count] state).upper * (State.round^[count] state).lower :=
    Nat.mul_pos (Nat.pos_of_ne_zero more) positive
  have product := reduced.pow_mul_rounds_le count
  have := Nat.mul_le_mul_left (2 ^ count) one_le
  omega

private theorem reduced_start (a : Nat) {n : Nat} (odd : n % 2 = 1) : (start a n).Reduced :=
  ⟨odd, Nat.mod_lt _ (by omega)⟩

private theorem upper_start_mul_lower_lt (a : Nat) {n : Nat} (odd : n % 2 = 1) :
    (start a n).upper * (start a n).lower < 2 ^ (2 * (n.log2 + 1)) := by
  have lower : n < 2 ^ (n.log2 + 1) := Nat.lt_log2_self
  have upper : a % n < 2 ^ (n.log2 + 1) := (Nat.mod_lt a (by omega)).trans lower
  calc a % n * n
      < 2 ^ (n.log2 + 1) * 2 ^ (n.log2 + 1) := Nat.mul_lt_mul'' upper lower
    _ = 2 ^ (2 * (n.log2 + 1)) := by rw [← Nat.pow_add, Nat.two_mul]

end State

private theorem symbol_eq_zero_iff (a : Nat) {n : Nat} (odd : n % 2 = 1) :
    symbol a n = 0 ↔ 1 < Nat.gcd a n := by
  have positive : 0 < Nat.gcd a n := Nat.gcd_pos_of_pos_right _ (by omega)
  rw [symbol_eq a odd, jacobiSym.eq_zero_iff, Int.gcd_natCast_natCast]
  omega

/-- The machine stops after at most two rounds for each bit of the lower number, and what is read off
it is the symbol: the product of the Legendre symbols over the prime factors of the lower number. It is
zero exactly where the two numbers share a factor. -/
theorem symbol_eq_product (a n : Nat) (odd : n % 2 = 1) :
    (∃ count ≤ 2 * (n.log2 + 1), (State.round^[count] (.start a n)).upper = 0 ∧
      (State.round^[count] (.start a n)).reading = symbol a n) ∧
    symbol a n = (n.primeFactorsList.pmap (fun p prime => @legendreSym p ⟨prime⟩ a)
      fun _ factor => Nat.prime_of_mem_primeFactorsList factor).prod ∧
    (symbol a n = 0 ↔ 1 < Nat.gcd a n) ∧ symbol a 1 = 1 := by
  refine ⟨⟨_, Nat.le_refl _, ?_⟩, symbol_eq a odd, symbol_eq_zero_iff a odd, ?_⟩
  · have stopped := (State.reduced_start a odd).upper_rounds_eq_zero
      (State.upper_start_mul_lower_lt a odd)
    refine ⟨stopped, ?_⟩
    rw [← State.value_of_upper_eq_zero stopped, State.value_rounds]
    rfl
  · rw [symbol_eq a rfl]
    exact jacobiSym.one_right a

/-- Three rounds: the first turns the sign for a two and for the exchange, the second for the exchange. -/
theorem symbol_of_286_above_2907 :
    2907 % 2 = 1 ∧ symbol 286 2907 = -1 ∧
      (∃ count ≤ 24, (State.round^[count] (.start 286 2907)).upper = 0 ∧
        (State.round^[count] (.start 286 2907)).reading = -1) ∧
      ((2907 : Nat).primeFactorsList.pmap (fun p prime => @legendreSym p ⟨prime⟩ 286)
        fun _ factor => Nat.prime_of_mem_primeFactorsList factor).prod = -1 := by
  have value : symbol 286 2907 = -1 := by decide +kernel
  have bits : 2 * (Nat.log2 2907 + 1) = 24 := by decide +kernel
  obtain ⟨stops, product, -, -⟩ := symbol_eq_product 286 2907 rfl
  rw [value] at product
  rw [bits, value] at stops
  exact ⟨rfl, value, stops, product.symm⟩

end DelayChain.Delay.Jacobi
