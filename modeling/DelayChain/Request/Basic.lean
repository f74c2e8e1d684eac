import DelayChain.Hash.Sha256
import DelayChain.Json.Record

/-!
# Client requests

An operation that a sender asks to have ordered. The identifier hashes every field of the content,
the signing payload all but the signature; both are JSON with the names in sorted order, so neither
can be read as anything else. The canonical line is what a block's commitment hashes.
-/

set_option autoImplicit false
set_option relaxedAutoImplicit false

namespace DelayChain

/-- A signed request. -/
structure Request where
  id : String
  sender : UInt32
  /-- The sender's own count of requests. -/
  sequence : UInt64
  operation : String
  /-- A signature in hexadecimal DER over the digest of the signing payload. -/
  signature : String
  deriving DecidableEq

namespace Request

/-- The members of the signing payload. -/
def signedMembers (sender : UInt32) (sequence : UInt64) (operation : String) :
    List (String × Json) :=
  [("operation", .text operation), ("sender_id", Json.ofNat sender.toNat),
   ("seq", Json.ofNat sequence.toNat)]

/-- The text that the identifier hashes. -/
def idPreimage (sender : UInt32) (sequence : UInt64) (operation signature : String) : String :=
  (Json.object (signedMembers sender sequence operation ++ [("signature", .text signature)])).render

/-- A request with the identifier of its content. -/
def make (sender : UInt32) (sequence : UInt64) (operation signature : String) : Request where
  id := Hash.Sha256.hex (Bytes.ofText (idPreimage sender sequence operation signature))
  sender
  sequence
  operation
  signature

/-- The text that a sender signs. -/
def signingPayload (request : Request) : String :=
  (Json.object (signedMembers request.sender request.sequence request.operation)).render

/-- The digest that a sender signs. -/
def signingDigest (request : Request) : Bytes :=
  Hash.Sha256.digest (Bytes.ofText request.signingPayload)

/-- The fields in one line, with colons between them. -/
def canonical (request : Request) : String :=
  request.id ++ ":" ++ toString request.sender.toNat ++ ":" ++ toString request.sequence.toNat ++
    ":" ++ request.operation ++ ":" ++ request.signature

/-- Neither operation nor signature is empty. -/
def IsWellFormed (request : Request) : Prop := request.operation ≠ "" ∧ request.signature ≠ ""

instance (request : Request) : Decidable request.IsWellFormed :=
  inferInstanceAs (Decidable (_ ∧ _))

def fieldNames : List String := ["txid", "sender_id", "seq", "operation", "signature"]

/-- The JSON form of a request. -/
def toJson (request : Request) : Json :=
  .object
    [("txid", .text request.id),
     ("sender_id", Json.ofNat request.sender.toNat),
     ("seq", Json.ofNat request.sequence.toNat),
     ("operation", .text request.operation),
     ("signature", .text request.signature)]

/-- The request that a JSON value stands for; its identifier is taken as it stands. -/
def ofJson? (value : Json) : Option Request := do
  match ← value.fields? fieldNames with
  | [some id, some sender, some sequence, some operation, some signature] =>
    some
      { id := ← id.string?
        sender := ← sender.uint32?
        sequence := ← sequence.uint64?
        operation := ← operation.string?
        signature := ← signature.string? }
  | _ => none

end Request

end DelayChain
