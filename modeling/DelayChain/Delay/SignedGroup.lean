import DelayChain.Bytes
import DelayChain.Delay.Jacobi
import DelayChain.Delay.Parameters
import DelayChain.Hash.Sha256
import DelayChain.Modular

/-!
# The signed residue group

Residues modulo an odd number with a residue and its negative taken for one element. The element is
represented by the smaller of the two, which is the one whose double is below the modulus. Values
that reach the transcript of a proof are always such representatives.
-/

set_option autoImplicit false
set_option relaxedAutoImplicit false

namespace DelayChain.Delay

namespace Parameters

/-- The representative of the element of a number: the smaller of its residue and the negative. -/
def canonical (P : Parameters) (value : Nat) : Nat :=
  let v := value % P.modulus
  if P.modulus - v < v then P.modulus - v else v

/-- The number represents an element. -/
def IsCanonical (P : Parameters) (value : Nat) : Prop := 2 * value < P.modulus

instance (P : Parameters) (value : Nat) : Decidable (P.IsCanonical value) :=
  inferInstanceAs (Decidable (2 * value < P.modulus))

/-- The number represents an element and has Jacobi symbol one. -/
def IsResidue (P : Parameters) (value : Nat) : Prop :=
  P.IsCanonical value ∧ Jacobi.symbol value P.modulus = 1

instance (P : Parameters) (value : Nat) : Decidable (P.IsResidue value) :=
  inferInstanceAs (Decidable (_ ∧ _))

/-- The element that an input is hashed to. -/
def elementOf (P : Parameters) (input : Bytes) : Nat :=
  P.canonical (Bytes.toNat (Hash.Sha256.digest input))

/-- The element of a number squared as many times as asked for. -/
def squarings (P : Parameters) (x count : Nat) : Nat :=
  P.canonical (Modular.squareTimes P.modulus count x)

end Parameters

end DelayChain.Delay
