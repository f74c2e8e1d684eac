import DelayChain.Block.Hasher
import DelayChain.Delay.Proof
import DelayChain.Request.Registry

/-!
# Blocks

A block is sealed by proof of work and later finalized by a proof of sequential work. The work hash
covers parent, requests, nonce and difficulty; the block hash is the work hash until a delay proof
is attached and then also covers the time parameter and the proof's fingerprint.
-/

set_option autoImplicit false
set_option relaxedAutoImplicit false

namespace DelayChain

/-- A block of the chain. -/
structure Block where
  height : UInt64
  /-- The hash of the block before; only a first block has none. -/
  parent : Option String
  requests : List Request
  /-- The hash under which the next block refers to this one. -/
  hash : String
  /-- Milliseconds since the epoch. -/
  timestamp : Int64
  nonce : UInt64
  /-- The number of zeros that the work hash has to begin with. -/
  difficulty : UInt32
  workHash : Option String
  proof : Option Delay.Proof
  time : UInt64
  finalized : Bool
  deriving DecidableEq

/-- A block has no room for one more request. -/
structure BlockFull where
  max : Nat
  deriving DecidableEq

def BlockFull.message (full : BlockFull) : String := s!"block is full ({full.max} transactions)"

/-- A request of a block that its sender's key does not cover. -/
structure InvalidRequest where
  id : String
  sender : UInt32
  reason : RequestError
  deriving DecidableEq

def InvalidRequest.message (invalid : InvalidRequest) : String :=
  s!"transaction {invalid.id} from sender {invalid.sender} failed signature validation: " ++
    invalid.reason.message

namespace Block

/-- The text that commits to the requests: the canonical line of each, in order. -/
def requestsPreimage (block : Block) : String :=
  String.join (block.requests.map fun request => request.canonical ++ "\n")

/-- The commitment to the requests. -/
def requestsHash (block : Block) : String :=
  Hash.Sha256.hex (Bytes.ofText block.requestsPreimage)

/-- The text that the work hash covers, for a given commitment and nonce. -/
def workPreimageAt (block : Block) (commitment : String) (nonce : UInt64) : String :=
  block.parent.getD "" ++ ":" ++ commitment ++ ":" ++ toString nonce.toNat ++ ":" ++
    toString block.difficulty.toNat

/-- The text that the work hash covers. -/
def workPreimage (block : Block) : String :=
  block.workPreimageAt block.requestsHash block.nonce

/-- The text that the block hash covers. -/
def preimage (block : Block) : String :=
  match block.proof with
  | none => block.workPreimage
  | some proof =>
    block.workPreimage ++ ":" ++ toString block.time.toNat ++ ":" ++ proof.fingerprint

def computeWorkHash (block : Block) (hasher : Hasher) : String := hasher block.workPreimage

def computeHash (block : Block) (hasher : Hasher) : String := hasher block.preimage

/-- The block with the hash of its contents. -/
def rehash (block : Block) (hasher : Hasher) : Block :=
  { block with hash := block.computeHash hasher }

/-- A block that is not sealed yet. -/
def candidate (height : UInt64) (parent : Option String) (requests : List Request)
    (difficulty : UInt32) (timestamp : Int64) : Block :=
  rehash
    { height, parent, requests, hash := "", timestamp, nonce := 0, difficulty, workHash := none
      proof := none, time := 0, finalized := false }
    Hasher.sha256

/-- The block sealed by a work hash, which becomes its block hash. -/
def sealWith (block : Block) (hash : String) : Block :=
  { block with hash, workHash := some hash }

/-- The first block: sealed at difficulty zero, never finalized, trusted as it is. -/
def genesis : Block :=
  let block := candidate 0 none [] 0 0
  block.sealWith (block.computeWorkHash Hasher.sha256)

/-- The block finalized by a delay proof and rehashed. -/
def attach (block : Block) (proof : Delay.Proof) (hasher : Hasher) : Block :=
  rehash { block with time := proof.time, proof := some proof, finalized := true } hasher

/-- The block is marked as finalized and carries a proof. -/
def IsFinalized (block : Block) : Prop := block.finalized = true ∧ block.proof.isSome = true

instance (block : Block) : Decidable block.IsFinalized := inferInstanceAs (Decidable (_ ∧ _))

/-- The block stands at height zero without a parent. -/
def IsGenesis (block : Block) : Prop := block.height = 0 ∧ block.parent = none

instance (block : Block) : Decidable block.IsGenesis := inferInstanceAs (Decidable (_ ∧ _))

/-- The block holds as many requests as it may, or more. -/
def IsFull (block : Block) (max : Nat) : Prop := max ≤ block.requests.length

instance (block : Block) (max : Nat) : Decidable (block.IsFull max) :=
  inferInstanceAs (Decidable (_ ≤ _))

/-- Adds a request behind the others and rehashes, unless the block is full. -/
def addRequest (block : Block) (request : Request) (max : Nat) : Except BlockFull Block :=
  if block.IsFull max then .error ⟨max⟩
  else .ok (rehash { block with requests := block.requests ++ [request] } Hasher.sha256)

/-- Checks every request against the keys of the senders and names the first that fails. -/
def checkRequests (keys : Registry) : List Request → Except InvalidRequest Unit
  | [] => .ok ()
  | request :: rest =>
    match keys.check request with
    | .error reason => .error ⟨request.id, request.sender, reason⟩
    | .ok () => checkRequests keys rest

end Block

end DelayChain
