import DelayChain.Hash.Sha256
import DelayChain.Text.Numeral

/-!
# Hashers of blocks

A hasher gives the digest of a preimage as lower-case hexadecimal text. Producers and validators of
one chain share it. Besides SHA-256 there are two rehearsal hashers, whose digests are decided by
the nonce in the preimage, so that a search can be made to end at a known place.
-/

set_option autoImplicit false
set_option relaxedAutoImplicit false

namespace DelayChain

/-- The digest of a preimage, in lower-case hexadecimal. -/
abbrev Hasher := String → String

namespace Hasher

/-- SHA-256 of the UTF-8 form. -/
def sha256 : Hasher := fun preimage => Hash.Sha256.hex (Bytes.ofText preimage)

/-- The text behind the first colon. -/
def behindColon? (cs : List Char) : Option (List Char) :=
  match cs.dropWhile (· != ':') with
  | _ :: rest => some rest
  | [] => none

/-- The nonce in a preimage: the third of the parts between colons, if it is a word of 64 bits. -/
def nonce? (preimage : String) : Option Nat := do
  let rest ← behindColon? preimage.toList
  let rest ← behindColon? rest
  Text.Numeral.unsigned? 0xffffffffffffffff (rest.takeWhile (· != ':'))

/-- A digest of zeros for one nonce; for every other the SHA-256 digest behind a leading f. -/
def gate (winning : Nat) : Hasher := fun preimage =>
  if nonce? preimage = some winning then String.ofList (List.replicate 64 '0')
  else String.ofList ('f' :: (sha256 preimage).toList.drop 1)

/-- A digest with one leading zero more after every ten nonces. -/
def ladder : Hasher := fun preimage =>
  let zeros := min ((nonce? preimage).getD 0 / 10) 64
  String.ofList (List.replicate zeros '0' ++ List.replicate (64 - zeros) 'f')

/-- The number of zeros that a digest begins with. -/
def leadingZeros (digest : String) : Nat := (digest.toList.takeWhile (· == '0')).length

/-- A digest begins with at least as many zeros as the difficulty says. -/
def Meets (digest : String) (difficulty : UInt32) : Prop :=
  difficulty.toNat ≤ leadingZeros digest

instance (digest : String) (difficulty : UInt32) : Decidable (Meets digest difficulty) :=
  inferInstanceAs (Decidable (_ ≤ _))

end Hasher

end DelayChain
