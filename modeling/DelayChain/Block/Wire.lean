import DelayChain.Block.Basic

/-!
# The JSON form of blocks

The fields of a block under their names on the wire. Parent, work hash and proof may be null or
missing; every other field is required.
-/

set_option autoImplicit false
set_option relaxedAutoImplicit false

namespace DelayChain.Block

def fieldNames : List String :=
  ["height", "prev_hash", "transactions", "block_hash", "timestamp", "nonce", "difficulty",
   "pow_hash", "vdf_proof", "time_parameter", "finalized"]

/-- The JSON form of a block. -/
def toJson (block : Block) : Json :=
  .object
    [("height", Json.ofNat block.height.toNat),
     ("prev_hash", Json.ofOption .text block.parent),
     ("transactions", .array (block.requests.map Request.toJson)),
     ("block_hash", .text block.hash),
     ("timestamp", .integer block.timestamp.toInt),
     ("nonce", Json.ofNat block.nonce.toNat),
     ("difficulty", Json.ofNat block.difficulty.toNat),
     ("pow_hash", Json.ofOption .text block.workHash),
     ("vdf_proof", Json.ofOption Delay.Proof.toJson block.proof),
     ("time_parameter", Json.ofNat block.time.toNat),
     ("finalized", .bool block.finalized)]

/-- The block that a JSON value stands for; its hashes are taken as they stand. -/
def ofJson? (value : Json) : Option Block := do
  match ← value.fields? fieldNames with
  | [some height, parent, some requests, some hash, some timestamp, some nonce, some difficulty,
      workHash, proof, some time, some finalized] =>
    some
      { height := ← height.uint64?
        parent := ← Json.optional? Json.string? parent
        requests := ← requests.listOf? Request.ofJson?
        hash := ← hash.string?
        timestamp := ← timestamp.int64?
        nonce := ← nonce.uint64?
        difficulty := ← difficulty.uint32?
        workHash := ← Json.optional? Json.string? workHash
        proof := ← Json.optional? Delay.Proof.ofJson? proof
        time := ← time.uint64?
        finalized := ← finalized.bool? }
  | _ => none

end DelayChain.Block
