/-!
# Rounded quotients

Positive numbers of binary floating point with a mantissa of fifty-three bits, as exact integers: a
quotient is rounded to the nearest such number, and a tie goes to the even mantissa. The range of
exponents is not bounded here; the word form is that of a normal number in double precision.
-/

set_option autoImplicit false
set_option relaxedAutoImplicit false

namespace DelayChain.Difficulty

/-- The number mantissa · 2 ^ exponent, whose mantissa has fifty-three bits. -/
structure Binary64 where
  mantissa : Nat
  exponent : Int
  deriving DecidableEq

namespace Binary64

/-- The least mantissa, two to the fifty-second power. -/
def leastMantissa : Nat := 0x10000000000000

/-- The quotient rounded to the nearest integer, a tie to the even one. -/
def roundDiv (numerator denominator : Nat) : Nat :=
  let q := numerator / denominator
  let r := numerator % denominator
  if 2 * r < denominator ∨ (2 * r = denominator ∧ q % 2 = 0) then q else q + 1

/-- The numerator and denominator of a quotient divided by two to the exponent. -/
def scaled (numerator denominator : Nat) (exponent : Int) : Nat × Nat :=
  (numerator <<< (-exponent).toNat, denominator <<< exponent.toNat)

/-- The exponent that gives a quotient fifty-three bits in front of the binary point. -/
def exponentOf (numerator denominator : Nat) : Int :=
  let guess : Int := (numerator.log2 : Int) - denominator.log2 - 52
  let s := scaled numerator denominator guess
  if s.1 < leastMantissa * s.2 then guess - 1 else guess

/-- The quotient of two positive numbers, rounded. -/
def ofRatio (numerator denominator : Nat) : Binary64 :=
  let exponent := exponentOf numerator denominator
  let s := scaled numerator denominator exponent
  let mantissa := roundDiv s.1 s.2
  if mantissa = 2 * leastMantissa then ⟨leastMantissa, exponent + 1⟩ else ⟨mantissa, exponent⟩

/-- A positive number, rounded. -/
def ofNat (n : Nat) : Binary64 := ofRatio n 1

/-- The quotient, rounded. -/
def div (a b : Binary64) : Binary64 :=
  ofRatio (a.mantissa <<< (a.exponent - b.exponent).toNat)
    (b.mantissa <<< (b.exponent - a.exponent).toNat)

/-- The first number is below the second. -/
def Less (a b : Binary64) : Prop :=
  a.exponent < b.exponent ∨ (a.exponent = b.exponent ∧ a.mantissa < b.mantissa)

instance (a b : Binary64) : Decidable (Less a b) := inferInstanceAs (Decidable (_ ∨ _))

/-- The number one. -/
def one : Binary64 := ⟨leastMantissa, -52⟩

/-- The number one quarter. -/
def quarter : Binary64 := ⟨leastMantissa, -54⟩

/-- The number four. -/
def four : Binary64 := ⟨leastMantissa, -50⟩

/-- The number brought into the range between two others. -/
def clamp (least greatest a : Binary64) : Binary64 :=
  if Less a least then least else if Less greatest a then greatest else a

/-- The word of sixty-four bits of the positive normal number. -/
def word (a : Binary64) : Nat :=
  ((a.exponent + 1075).toNat <<< 52) + (a.mantissa - leastMantissa)

end Binary64

end DelayChain.Difficulty
