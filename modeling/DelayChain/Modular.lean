/-!
# Arithmetic modulo a number

Powers by repeated squaring, plain repeated squaring, and differences and inverses of residues.
-/

set_option autoImplicit false
set_option relaxedAutoImplicit false

namespace DelayChain.Modular

/-- A power modulo a number. -/
def pow (n base exponent : Nat) : Nat :=
  if exponent = 0 then 1 % n
  else
    let half := pow n (base * base % n) (exponent / 2)
    if exponent % 2 = 1 then base * half % n else half
termination_by exponent

/-- Squares a number as many times as asked for, reducing each square. -/
def squareTimes (n : Nat) : (count : Nat) → Nat → Nat
  | 0, x => x
  | count + 1, x => squareTimes n count (x * x % n)

/-- The difference of two residues. -/
def sub (n a b : Nat) : Nat := (a + n - b) % n

/-- The inverse of a residue modulo a prime. -/
def inverse (p a : Nat) : Nat := pow p a (p - 2)

end DelayChain.Modular
