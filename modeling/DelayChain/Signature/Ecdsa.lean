import DelayChain.Signature.Der
import DelayChain.Text.Hex

/-!
# ECDSA over secp256k1

Checking a signature of a 32-byte message under a public key, both given in hexadecimal. Of the two
values of s that verify, only the lower is taken, so a signature has one form.
-/

set_option autoImplicit false
set_option relaxedAutoImplicit false

namespace DelayChain.Signature.Ecdsa

/-- Why a signature cannot be checked at all. -/
inductive FormError where
  | signatureHex
  | signature
  | keyHex
  | key
  deriving DecidableEq

def FormError.message : FormError → String
  | .signatureHex => "invalid signature hex"
  | .signature => "invalid DER signature"
  | .keyHex => "invalid pubkey hex"
  | .key => "invalid pubkey bytes"

/-- The point of a public key: 33 bytes with the parity of y in the first, or 65 bytes with both
coordinates, of which the hybrid forms also state the parity. -/
def key? (bytes : Bytes) : Option Curve.Point :=
  match bytes with
  | [] => none
  | tag :: body =>
    let x := Bytes.toNat (body.take 32)
    let y := Bytes.toNat (body.drop 32)
    if body.length = 32 ∧ (tag = 0x02 ∨ tag = 0x03) then Curve.lift? x (tag == 0x03)
    else if body.length = 64 ∧ tag = 0x04 then Curve.affine? x y
    else if body.length = 64 ∧ (tag = 0x06 ∨ tag = 0x07) ∧ (y % 2 == 1) = (tag == 0x07) then
      Curve.affine? x y
    else none

/-- The scalars sign the message under the key. -/
def holds (key : Curve.Point) (scalars : Der.Scalars) (message : Bytes) : Bool :=
  if scalars.r = 0 ∨ scalars.s = 0 ∨ Curve.order / 2 < scalars.s then false
  else
    let e := Bytes.toNat message % Curve.order
    let w := Modular.inverse Curve.order scalars.s
    let point := Curve.add (Curve.scale (e * w % Curve.order) Curve.generator)
      (Curve.scale (scalars.r * w % Curve.order) key)
    match Curve.affineX? point with
    | none => false
    | some x => x % Curve.order == scalars.r

/-- Checks a signature in hexadecimal DER under a key in hexadecimal. -/
def check (key signature : String) (message : Bytes) : Except FormError Bool :=
  match Text.Hex.decode? signature with
  | none => .error .signatureHex
  | some signature =>
    match Der.decode? signature with
    | none => .error .signature
    | some scalars =>
      match Text.Hex.decode? key with
      | none => .error .keyHex
      | some key =>
        match key? key with
        | none => .error .key
        | some key => .ok (holds key scalars message)

end DelayChain.Signature.Ecdsa
