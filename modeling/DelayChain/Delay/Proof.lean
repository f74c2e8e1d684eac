import DelayChain.Hash.Sha256
import DelayChain.Json.Record
import DelayChain.Text.Numeral

/-!
# Proofs of sequential work

The output of the delay function with the midpoints that prove it. The fingerprint commits to every
field: the numbers in hexadecimal with colons between them, then both words behind bars.
-/

set_option autoImplicit false
set_option relaxedAutoImplicit false

namespace DelayChain.Delay

/-- An output of the delay function and its midpoints, outermost first. -/
structure Proof where
  output : Nat
  midpoints : List Nat
  time : UInt64
  /-- Milliseconds since the epoch. -/
  createdAt : Int64
  deriving DecidableEq

namespace Proof

/-- The size of the encoded proof in bytes: its numbers and two words of eight bytes. -/
def size (proof : Proof) : Nat :=
  proof.midpoints.foldl (fun size mu => size + (Bytes.ofNat mu).length)
    ((Bytes.ofNat proof.output).length + 16)

/-- The text that the fingerprint hashes. -/
def preimage (proof : Proof) : String :=
  Text.Numeral.hex proof.output ++
    String.join (proof.midpoints.map fun mu => ":" ++ Text.Numeral.hex mu) ++
    "|" ++ toString proof.time.toNat ++ "|" ++ toString proof.createdAt.toInt

def fingerprint (proof : Proof) : String := Hash.Sha256.hex (Bytes.ofText proof.preimage)

def fieldNames : List String := ["output", "proof_elements", "time_parameter", "created_at"]

/-- The JSON form of a proof. -/
def toJson (proof : Proof) : Json :=
  .object
    [("output", Json.ofHexNatural proof.output),
     ("proof_elements", .array (proof.midpoints.map Json.ofHexNatural)),
     ("time_parameter", Json.ofNat proof.time.toNat),
     ("created_at", .integer proof.createdAt.toInt)]

/-- The proof that a JSON value stands for. -/
def ofJson? (value : Json) : Option Proof := do
  match ← value.fields? fieldNames with
  | [some output, some midpoints, some time, some createdAt] =>
    some
      { output := ← output.hexNatural?
        midpoints := ← midpoints.listOf? Json.hexNatural?
        time := ← time.uint64?
        createdAt := ← createdAt.int64? }
  | _ => none

end Proof

end DelayChain.Delay
