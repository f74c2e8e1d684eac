import DelayChain.Delay.SignedGroup

/-!
# Claims of repeated squaring

A claim says that squaring a base a number of times gives an output. With a midpoint it splits into
two claims of half the length, which a challenge drawn from the whole round folds back into one. An
odd length puts the midpoint one squaring past the middle, so the output is squared first.
-/

set_option autoImplicit false
set_option relaxedAutoImplicit false

namespace DelayChain.Delay

/-- Half a length, rounded up. -/
def half (length : Nat) : Nat := (length + 1) / 2

/-- The number of halvings that bring a length down to one. -/
def rounds (length : Nat) : Nat :=
  if length ≤ 1 then 0 else rounds (half length) + 1
termination_by length
decreasing_by simp only [half]; omega

/-- Squaring the base as many times as the length says gives the output. -/
structure Claim where
  base : Nat
  output : Nat
  length : Nat
  deriving DecidableEq

namespace Claim

/-- What a round's challenge is drawn from: base, length, output and midpoint, the numbers at the
width of the modulus and the length in eight bytes. -/
def transcript (P : Parameters) (claim : Claim) (midpoint : Nat) : Bytes :=
  Bytes.padded P.width claim.base ++ Bytes.word 8 claim.length ++
    Bytes.padded P.width claim.output ++ Bytes.padded P.width midpoint

/-- The challenge of a round, below two to the security parameter. -/
def challenge (P : Parameters) (claim : Claim) (midpoint : Nat) : Nat :=
  Bytes.toNat (Hash.Sha256.digest (claim.transcript P midpoint)) % (1 <<< P.security.toNat)

/-- The claim of half the length that both halves fold into. -/
def fold (P : Parameters) (claim : Claim) (midpoint : Nat) : Claim :=
  let r := claim.challenge P midpoint
  let target :=
    if claim.length % 2 = 1 then claim.output * claim.output % P.modulus else claim.output
  { base := P.canonical (Modular.pow P.modulus claim.base r * midpoint)
    output := P.canonical (Modular.pow P.modulus midpoint r * target)
    length := half claim.length }

@[simp] theorem fold_length (P : Parameters) (claim : Claim) (midpoint : Nat) :
    (claim.fold P midpoint).length = half claim.length := rfl

end Claim

end DelayChain.Delay
