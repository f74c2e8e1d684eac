import DelayChain.Proofs.RoundTrip
import DelayChain.Proofs.Text

/-!
# What senders sign and identifiers hash

Both payloads of a request are compact JSON. Reading undoes writing whatever the texts hold, so each
payload determines the members it is written from, and with them the fields. The payload of the
identifier has one member more, so it is never what a sender signs.
-/

set_option autoImplicit false
set_option relaxedAutoImplicit false

namespace DelayChain

private theorem Json.render_injective {value value' : Json} (plain : value.Plain)
    (plain' : value'.Plain) (same : value.render = value'.render) : value = value' := by
  have read := read_render plain
  rw [same, read_render plain'] at read
  exact (Option.some.inj read).symm

namespace Request

variable {a b : Request}

/-- The text that the identifier hashes where it is that of the content. -/
def idPayload (request : Request) : String :=
  idPreimage request.sender request.sequence request.operation request.signature

/-- The members of the payload of the identifier. -/
def idMembers (request : Request) : List (String × Json) :=
  signedMembers request.sender request.sequence request.operation ++
    [("signature", .text request.signature)]

theorem id_make (sender : UInt32) (sequence : UInt64) (operation signature : String) :
    (make sender sequence operation signature).id =
      Hash.Sha256.hex (Bytes.ofText (make sender sequence operation signature).idPayload) := rfl

private theorem plain_signedMembers (sender : UInt32) (sequence : UInt64) (operation : String) :
    (Json.object (signedMembers sender sequence operation)).Plain :=
  ⟨trivial, trivial, trivial, trivial⟩

private theorem plain_idMembers (request : Request) : (Json.object request.idMembers).Plain :=
  ⟨trivial, trivial, trivial, trivial, trivial⟩

private theorem signedMembers_eq_iff {sender sender' : UInt32} {sequence sequence' : UInt64}
    {operation operation' : String} :
    signedMembers sender sequence operation = signedMembers sender' sequence' operation' ↔
      sender = sender' ∧ sequence = sequence' ∧ operation = operation' := by
  constructor
  · intro same
    simp only [signedMembers, Json.ofNat, List.cons.injEq, Prod.mk.injEq, Json.text.injEq,
      Json.integer.injEq, Int.natCast_inj, true_and, and_true] at same
    obtain ⟨operations, senders, sequences⟩ := same
    exact ⟨UInt32.toNat.inj senders, UInt64.toNat.inj sequences, operations⟩
  · rintro ⟨rfl, rfl, rfl⟩
    rfl

private theorem signingPayload_eq_iff :
    a.signingPayload = b.signingPayload ↔
      a.sender = b.sender ∧ a.sequence = b.sequence ∧ a.operation = b.operation := by
  constructor
  · intro same
    have objects := Json.render_injective (plain_signedMembers _ _ _) (plain_signedMembers _ _ _) same
    exact signedMembers_eq_iff.mp (Json.object.inj objects)
  · rintro ⟨sender, sequence, operation⟩
    rw [signingPayload, signingPayload, sender, sequence, operation]

theorem idPayload_eq_iff :
    a.idPayload = b.idPayload ↔
      a.sender = b.sender ∧ a.sequence = b.sequence ∧ a.operation = b.operation ∧
        a.signature = b.signature := by
  constructor
  · intro same
    have objects := Json.render_injective a.plain_idMembers b.plain_idMembers same
    obtain ⟨signed, signatures⟩ := List.append_inj' (Json.object.inj objects) rfl
    obtain ⟨sender, sequence, operation⟩ := signedMembers_eq_iff.mp signed
    simp only [List.cons.injEq, Prod.mk.injEq, Json.text.injEq, true_and, and_true] at signatures
    exact ⟨sender, sequence, operation, signatures⟩
  · rintro ⟨sender, sequence, operation, signature⟩
    rw [idPayload, idPayload, sender, sequence, operation, signature]

private theorem signingPayload_ne_idPayload (a b : Request) : a.signingPayload ≠ b.idPayload := by
  intro same
  have objects := Json.render_injective (plain_signedMembers _ _ _) b.plain_idMembers same
  have lengths : 3 = 4 := congrArg List.length (Json.object.inj objects)
  exact absurd lengths (by decide)

/-- What is signed determines sender, sequence number and operation, and what an identifier hashes
determines the signature as well, whatever texts they are. Nothing is both signed and hashed into an
identifier. -/
theorem payloads_unambiguous :
    (∀ a b : Request, Bytes.ofText a.signingPayload = Bytes.ofText b.signingPayload ↔
      a.sender = b.sender ∧ a.sequence = b.sequence ∧ a.operation = b.operation) ∧
    (∀ a b : Request, Bytes.ofText a.idPayload = Bytes.ofText b.idPayload ↔
      a.sender = b.sender ∧ a.sequence = b.sequence ∧ a.operation = b.operation ∧
        a.signature = b.signature) ∧
    ∀ a b : Request, Bytes.ofText a.signingPayload ≠ Bytes.ofText b.idPayload := by
  have bytes (text text' : String) : Bytes.ofText text = Bytes.ofText text' ↔ text = text' :=
    ⟨Bytes.ofText_injective, congrArg Bytes.ofText⟩
  simp only [bytes, ne_eq]
  exact ⟨fun _ _ => signingPayload_eq_iff, fun _ _ => idPayload_eq_iff, signingPayload_ne_idPayload⟩

end Request

end DelayChain
