import DelayChain.Modular

/-!
# The curve secp256k1

The points of y² = x³ + 7 over a prime field, in Jacobian coordinates: (x, y, z) stands for the
affine point (x/z², y/z³), and z = 0 for the point at infinity, so that adding needs no inverse.
-/

set_option autoImplicit false
set_option relaxedAutoImplicit false

namespace DelayChain.Signature.Curve

def prime : Nat := 0xfffffffffffffffffffffffffffffffffffffffffffffffffffffffefffffc2f

def order : Nat := 0xfffffffffffffffffffffffffffffffebaaedce6af48a03bbfd25e8cd0364141

/-- A point in Jacobian coordinates below the prime. -/
structure Point where
  x : Nat
  y : Nat
  z : Nat
  deriving DecidableEq

def infinity : Point := ⟨1, 1, 0⟩

def generator : Point where
  x := 0x79be667ef9dcbbac55a06295ce870b07029bfcdb2dce28d959f2815b16f81798
  y := 0x483ada7726a3c4655da4fbfc0e1108a8fd17b448a68554199c47d08ffb10d4b8
  z := 1

def mul (a b : Nat) : Nat := a * b % prime

/-- The difference of two coordinates. -/
def sub (a b : Nat) : Nat := Modular.sub prime a b

/-- The right-hand side of the equation at a coordinate. -/
def cubic (x : Nat) : Nat := (x * x % prime * x + 7) % prime

/-- The affine point lies on the curve. -/
def isOnCurve (x y : Nat) : Bool := mul y y == cubic x

def double (P : Point) : Point :=
  if P.z = 0 ∨ P.y = 0 then infinity
  else
    let yy := mul P.y P.y
    let s := mul 4 (mul P.x yy)
    let m := mul 3 (mul P.x P.x)
    let x := sub (mul m m) (mul 2 s)
    let y := sub (mul m (sub s x)) (mul 8 (mul yy yy))
    ⟨x, y, mul 2 (mul P.y P.z)⟩

def add (P Q : Point) : Point :=
  if P.z = 0 then Q
  else if Q.z = 0 then P
  else
    let pp := mul P.z P.z
    let qq := mul Q.z Q.z
    let u₁ := mul P.x qq
    let u₂ := mul Q.x pp
    let s₁ := mul P.y (mul qq Q.z)
    let s₂ := mul Q.y (mul pp P.z)
    if u₁ = u₂ then
      if s₁ = s₂ then double P else infinity
    else
      let h := sub u₂ u₁
      let r := sub s₂ s₁
      let hh := mul h h
      let hhh := mul h hh
      let v := mul u₁ hh
      let x := sub (sub (mul r r) hhh) (mul 2 v)
      let y := sub (mul r (sub v x)) (mul s₁ hhh)
      ⟨x, y, mul h (mul P.z Q.z)⟩

/-- A multiple of a point, by doubling. -/
def scale (k : Nat) (P : Point) : Point :=
  if k = 0 then infinity
  else
    let rest := scale (k / 2) (double P)
    if k % 2 = 1 then add P rest else rest
termination_by k

/-- The affine first coordinate of a point that is not at infinity. -/
def affineX? (P : Point) : Option Nat :=
  if P.z = 0 then none
  else
    let inverse := Modular.inverse prime P.z
    some (mul P.x (mul inverse inverse))

/-- The affine point with the given first coordinate whose second coordinate has the given
parity. -/
def lift? (x : Nat) (odd : Bool) : Option Point :=
  if prime ≤ x then none
  else
    let y := Modular.pow prime (cubic x) ((prime + 1) / 4)
    if isOnCurve x y then
      some ⟨x, if (y % 2 == 1) == odd then y else sub 0 y, 1⟩
    else none

/-- The affine point with both coordinates given. -/
def affine? (x y : Nat) : Option Point :=
  if x < prime ∧ y < prime ∧ isOnCurve x y then some ⟨x, y, 1⟩ else none

end DelayChain.Signature.Curve
