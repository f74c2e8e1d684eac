import Mathlib.Data.Nat.Digits.Defs
import DelayChain.Block.Basic
import DelayChain.Proofs.Text

/-!
# What the hashed texts determine

The text of a delay proof holds each of its fields between separators that no numeral contains, so it
determines the proof. The text of a finalized block ends in the time parameter and the fingerprint of
its proof, so it determines both and the text that the work hash covers; that text in turn determines
the parts it is made of. A text with a proof and one without end in parts of different length, so a block
is never taken for one of the other kind. Digests as text determine their bytes, and one digest of two
texts is a collision.
-/

set_option autoImplicit false
set_option relaxedAutoImplicit false

namespace DelayChain

namespace Hash.Sha256

/-- Two texts have one digest. -/
def Collide (text text' : String) : Prop :=
  text ≠ text' ∧ digest (Bytes.ofText text) = digest (Bytes.ofText text')

instance (text text' : String) : Decidable (Collide text text') :=
  inferInstanceAs (Decidable (_ ∧ _))

private theorem hex_injective {message message' : Bytes} (same : hex message = hex message') :
    digest message = digest message' := by
  have read := Text.Hex.decode_encode (digest message)
  rw [← hex, same, hex, Text.Hex.decode_encode] at read
  exact (Option.some.inj read).symm

theorem Collide.hex_eq {text text' : String} (collide : Collide text text') :
    hex (Bytes.ofText text) = hex (Bytes.ofText text') := congrArg Text.Hex.encode collide.2

theorem collide_of_ne {text text' : String} (differ : text ≠ text')
    (same : hex (Bytes.ofText text) = hex (Bytes.ofText text')) : Collide text text' :=
  ⟨differ, hex_injective same⟩

theorem eq_or_collide {text text' : String}
    (same : hex (Bytes.ofText text) = hex (Bytes.ofText text')) :
    text = text' ∨ Collide text text' := by
  by_cases equal : text = text'
  · exact .inl equal
  · exact .inr (collide_of_ne equal same)

theorem length_toList_hex (message : Bytes) : (hex message).toList.length = 64 := by
  rw [String.length_toList, length_hex]

private theorem not_mem_hex {c : Char} (other : Text.Hex.digitValue? c = none) (bytes : Bytes) :
    c ∉ (hex bytes).toList := by
  rw [hex, Text.Hex.encode, String.toList_ofList]
  exact Text.Hex.not_mem_digits other _

end Hash.Sha256

namespace Delay.Proof

/-- The numbers of a proof behind the first one, each behind a colon. -/
def tail (numbers : List Nat) : List Char :=
  numbers.flatMap fun n => ':' :: Nat.toDigits 16 n

private theorem toList_preimage (proof : Proof) :
    proof.preimage.toList =
      Nat.toDigits 16 proof.output ++ tail proof.midpoints ++
        '|' :: (Nat.toDigits 10 proof.time.toNat ++ '|' :: (toString proof.createdAt.toInt).toList) := by
  simp [preimage, tail, Text.Numeral.hex, List.flatMap_map]

private theorem bar_not_mem_tail (numbers : List Nat) : '|' ∉ tail numbers := by
  intro member
  obtain ⟨n, -, found⟩ := List.mem_flatMap.mp member
  rcases List.mem_cons.mp found with colon | digit
  · exact absurd colon (by decide)
  · exact absurd digit (Text.Numeral.not_mem_toDigits n)

private theorem eq_of_tail_eq {first first' : Nat} {rest rest' : List Nat}
    (same : Nat.toDigits 16 first ++ tail rest = Nat.toDigits 16 first' ++ tail rest') :
    first = first' ∧ rest = rest' := by
  have colon (n : Nat) : ':' ∉ Nat.toDigits 16 n :=
    Text.Numeral.not_mem_toDigits n
  induction rest generalizing first first' rest' with
  | nil =>
    cases rest' with
    | nil =>
      have digits : Nat.toDigits 16 first = Nat.toDigits 16 first' := by simpa [tail] using same
      exact ⟨Text.Numeral.toDigits_injective digits, rfl⟩
    | cons second rest' =>
      refine absurd ?_ (colon first)
      have digits : Nat.toDigits 16 first =
          Nat.toDigits 16 first' ++ ':' :: (Nat.toDigits 16 second ++ tail rest') := by
        simpa [tail] using same
      rw [digits]
      simp
  | cons second rest ih =>
    cases rest' with
    | nil =>
      refine absurd ?_ (colon first')
      have digits : Nat.toDigits 16 first ++ ':' :: (Nat.toDigits 16 second ++ tail rest) =
          Nat.toDigits 16 first' := by simpa [tail] using same
      rw [← digits]
      simp
    | cons second' rest' =>
      have split : Nat.toDigits 16 first ++ ':' :: (Nat.toDigits 16 second ++ tail rest) =
          Nat.toDigits 16 first' ++ ':' :: (Nat.toDigits 16 second' ++ tail rest') := same
      obtain ⟨firsts, behind⟩ := Text.Separator.eq_of_first (colon first) (colon first') split
      obtain ⟨seconds, rests⟩ := ih behind
      rw [seconds, rests]
      exact ⟨Text.Numeral.toDigits_injective firsts, rfl⟩

theorem preimage_injective {proof proof' : Proof} (same : proof.preimage = proof'.preimage) :
    proof = proof' := by
  have texts := congrArg String.toList same
  rw [toList_preimage, toList_preimage] at texts
  have barless (proof : Proof) : '|' ∉ Nat.toDigits 16 proof.output ++ tail proof.midpoints := by
    intro member
    rcases List.mem_append.mp member with digit | behind
    · exact absurd digit (Text.Numeral.not_mem_toDigits _)
    · exact bar_not_mem_tail _ behind
  obtain ⟨numbers, words⟩ := Text.Separator.eq_of_first (barless proof) (barless proof') texts
  obtain ⟨outputs, midpoints⟩ := eq_of_tail_eq numbers
  have plain (n : Nat) : '|' ∉ Nat.toDigits 10 n :=
    Text.Numeral.not_mem_toDigits n
  obtain ⟨times, dates⟩ := Text.Separator.eq_of_first (plain _) (plain _) words
  have time := UInt64.toNat.inj (Text.Numeral.toDigits_injective times)
  have createdAt := Int64.toInt.inj (Text.Numeral.eq_of_toString_eq dates)
  cases proof
  cases proof'
  cases outputs
  cases midpoints
  cases time
  cases createdAt
  rfl

private theorem colon_not_mem_fingerprint (proof : Proof) : ':' ∉ proof.fingerprint.toList :=
  Hash.Sha256.not_mem_hex (by decide) _

end Delay.Proof

namespace Block

variable {a b : Block} {proof proof' : Delay.Proof}

private theorem toList_workPreimage (block : Block) :
    block.workPreimage.toList =
      (((block.parent.getD "").toList ++ ':' :: block.requestsHash.toList) ++
        ':' :: Nat.toDigits 10 block.nonce.toNat) ++
          ':' :: Nat.toDigits 10 block.difficulty.toNat := by
  simp [workPreimage, workPreimageAt]

theorem eq_of_workPreimage_eq (same : a.workPreimage = b.workPreimage) :
    a.parent.getD "" = b.parent.getD "" ∧ a.requestsHash = b.requestsHash ∧ a.nonce = b.nonce ∧
      a.difficulty = b.difficulty := by
  have texts := congrArg String.toList same
  rw [toList_workPreimage, toList_workPreimage] at texts
  have plain (n : Nat) : ':' ∉ Nat.toDigits 10 n :=
    Text.Numeral.not_mem_toDigits n
  have plainHash (block : Block) : ':' ∉ block.requestsHash.toList :=
    Hash.Sha256.not_mem_hex (by decide) _
  obtain ⟨fronts, difficulties⟩ := Text.Separator.eq_of_last (plain _) (plain _) texts
  obtain ⟨heads, nonces⟩ := Text.Separator.eq_of_last (plain _) (plain _) fronts
  obtain ⟨parents, commitments⟩ :=
    Text.Separator.eq_of_last (plainHash a) (plainHash b) heads
  have nonce := UInt64.toNat.inj (Text.Numeral.toDigits_injective nonces)
  have difficulty := UInt32.toNat.inj (Text.Numeral.toDigits_injective difficulties)
  exact ⟨String.ext parents, String.ext commitments, nonce, difficulty⟩

theorem toList_preimage (attached : a.proof = some proof) :
    a.preimage.toList =
      (a.workPreimage.toList ++ ':' :: Nat.toDigits 10 a.time.toNat) ++
        ':' :: proof.fingerprint.toList := by
  rw [preimage, attached]
  simp

/-- The text of a finalized block is read from behind, where no part holds a colon. -/
theorem eq_of_preimage_eq (attached : a.proof = some proof) (attached' : b.proof = some proof')
    (same : a.preimage = b.preimage) :
    a.workPreimage = b.workPreimage ∧ a.time = b.time ∧
      proof.fingerprint = proof'.fingerprint := by
  have texts := congrArg String.toList same
  rw [toList_preimage attached, toList_preimage attached'] at texts
  obtain ⟨fronts, fingerprints⟩ := Text.Separator.eq_of_last
    proof.colon_not_mem_fingerprint proof'.colon_not_mem_fingerprint texts
  have plain (n : Nat) : ':' ∉ Nat.toDigits 10 n :=
    Text.Numeral.not_mem_toDigits n
  obtain ⟨works, times⟩ := Text.Separator.eq_of_last (plain _) (plain _) fronts
  have time := Text.Numeral.toDigits_injective times
  exact ⟨String.ext works, UInt64.toNat.inj time, String.ext fingerprints⟩

theorem workPreimage_eq_iff :
    a.workPreimage = b.workPreimage ↔
      a.parent.getD "" = b.parent.getD "" ∧ a.requestsHash = b.requestsHash ∧ a.nonce = b.nonce ∧
        a.difficulty = b.difficulty := by
  constructor
  · intro same
    exact eq_of_workPreimage_eq same
  · rintro ⟨parent, commitment, nonce, difficulty⟩
    rw [workPreimage, workPreimage, workPreimageAt, workPreimageAt, parent, commitment, nonce,
      difficulty]

/-- A text that ends in a difficulty does not end in a digest, which is longer than any difficulty. -/
private theorem preimage_ne_of_proof (plain : a.proof = none) (attached : b.proof = some proof) :
    a.preimage ≠ b.preimage := by
  intro same
  have texts := congrArg String.toList same
  rw [preimage, plain, toList_preimage attached] at texts
  dsimp only at texts
  rw [toList_workPreimage] at texts
  have solid : ':' ∉ Nat.toDigits 10 a.difficulty.toNat := Text.Numeral.not_mem_toDigits _
  obtain ⟨-, ends⟩ :=
    Text.Separator.eq_of_last solid proof.colon_not_mem_fingerprint texts
  have bound : a.difficulty.toNat < 10 ^ 10 := a.difficulty.toNat_lt.trans (by decide)
  have short := Nat.toDigits_length 10 a.difficulty.toNat 10 (by decide) bound
  have long : proof.fingerprint.toList.length = 64 := Hash.Sha256.length_toList_hex _
  rw [ends] at short
  omega

theorem preimage_eq_iff :
    a.preimage = b.preimage ↔
      a.workPreimage = b.workPreimage ∧
        (a.proof = none ∧ b.proof = none ∨
          ∃ proof proof', a.proof = some proof ∧ b.proof = some proof' ∧ a.time = b.time ∧
            proof.fingerprint = proof'.fingerprint) := by
  constructor
  · intro same
    cases plain : a.proof with
    | none =>
      cases plain' : b.proof with
      | none =>
        rw [preimage, preimage, plain, plain'] at same
        exact ⟨same, .inl ⟨rfl, rfl⟩⟩
      | some proof' => exact absurd same (preimage_ne_of_proof plain plain')
    | some proof =>
      cases plain' : b.proof with
      | none => exact absurd same.symm (preimage_ne_of_proof plain' plain)
      | some proof' =>
        obtain ⟨works, times, fingerprints⟩ := eq_of_preimage_eq plain plain' same
        exact ⟨works, .inr ⟨proof, proof', rfl, rfl, times, fingerprints⟩⟩
  · rintro ⟨works, ⟨plain, plain'⟩ | ⟨proof, proof', plain, plain', times, fingerprints⟩⟩
    · rw [preimage, preimage, plain, plain']
      exact works
    · rw [preimage, preimage, plain, plain']
      dsimp only
      rw [works, times, fingerprints]

end Block

/-- Blocks are hashed over one text exactly if they agree on the hash of the parent, where none reads as
the empty text, on the commitment to the requests, on nonce and difficulty, and either carry no proof or
carry proofs under one time parameter with one fingerprint. Fingerprints are taken of the same bytes only
for one and the same proof. -/
theorem preimages_unambiguous :
    (∀ a b : Block, a.preimage = b.preimage ↔
      a.parent.getD "" = b.parent.getD "" ∧ a.requestsHash = b.requestsHash ∧ a.nonce = b.nonce ∧
        a.difficulty = b.difficulty ∧
        (a.proof = none ∧ b.proof = none ∨
          ∃ proof proof', a.proof = some proof ∧ b.proof = some proof' ∧ a.time = b.time ∧
            proof.fingerprint = proof'.fingerprint)) ∧
    ∀ proof proof' : Delay.Proof,
      Bytes.ofText proof.preimage = Bytes.ofText proof'.preimage ↔ proof = proof' := by
  constructor
  · intro a b
    rw [Block.preimage_eq_iff, Block.workPreimage_eq_iff]
    simp only [and_assoc]
  · intro proof proof'
    constructor
    · intro bytes
      exact Delay.Proof.preimage_injective (Bytes.ofText_injective bytes)
    · intro same
      rw [same]

end DelayChain
