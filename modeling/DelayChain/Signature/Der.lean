import DelayChain.Bytes
import DelayChain.Signature.Curve

/-!
# Signatures in DER

A sequence of two integers and nothing else, every length in its one shortest form and no integer
with a redundant leading byte. A negative integer or one that is not below the order of the curve
is well-formed but is no scalar; zero stands for it, and zero never verifies.
-/

set_option autoImplicit false
set_option relaxedAutoImplicit false

namespace DelayChain.Signature.Der

/-- A pair of scalars. -/
structure Scalars where
  r : Nat
  s : Nat
  deriving DecidableEq

/-- Reads a length: one byte below 128, or the number of bytes that hold it, at most eight, without
a leading zero and only where one byte is too short. -/
def length? : Bytes → Option (Nat × Bytes)
  | [] => none
  | b :: rest =>
    if b < 0x80 then some (b.toNat, rest)
    else if b = 0x80 ∨ b = 0xff then none
    else
      let count := b.toNat - 0x80
      let value := Bytes.toNat (rest.take count)
      let behind := rest.drop count
      if rest.length < count ∨ 8 < count ∨ rest.head? = some 0 then none
      else if behind.length < value ∨ value < 128 then none
      else some (value, behind)

/-- The leading byte says no more than the sign bit behind it. -/
def isRedundant : Bytes → Bool
  | first :: second :: _ =>
    (first == 0 && second < 0x80) || (first == 0xff && 0x80 ≤ second)
  | _ => false

/-- The scalar that the bytes of an integer stand for, and zero if they stand for none. -/
def scalar (bytes : Bytes) : Nat :=
  let value := Bytes.toNat bytes
  if bytes.head?.any (0x80 ≤ ·) ∨ Curve.order ≤ value then 0 else value

/-- Reads an integer. -/
def integer? : Bytes → Option (Nat × Bytes)
  | 0x02 :: rest =>
    match length? rest with
    | none => none
    | some (length, rest) =>
      let body := rest.take length
      if length = 0 ∨ rest.length < length ∨ isRedundant body then none
      else some (scalar body, rest.drop length)
  | _ => none

/-- Reads a signature. -/
def decode? : Bytes → Option Scalars
  | 0x30 :: rest => do
    let (length, rest) ← length? rest
    if length ≠ rest.length then none
    else
      let (r, rest) ← integer? rest
      let (s, rest) ← integer? rest
      if rest = [] then some ⟨r, s⟩ else none
  | _ => none

end DelayChain.Signature.Der
