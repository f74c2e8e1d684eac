import DelayChain.Block.Basic

/-!
# The search for a nonce

Nonces are tried from zero upwards until a digest meets the difficulty. Whether the search has been
called off is looked at after each nonce that does not win, so a first nonce that wins is found even
when the search was called off before it began.
-/

set_option autoImplicit false
set_option relaxedAutoImplicit false

namespace DelayChain

/-- How a search for a nonce ends. -/
inductive Search where
  | won (nonce : UInt64) (digest : String)
  | cancelled (nonce : UInt64)
  /-- No nonce wins. -/
  | exhausted
  deriving DecidableEq

/-- Tries the nonces from the given one on. The flag tells for each nonce whether the search is
called off by the time that nonce has failed. -/
def Search.from (digest : UInt64 → String) (difficulty : UInt32) (flag : UInt64 → Bool)
    (nonce : UInt64) : Search :=
  let found := digest nonce
  if Hasher.Meets found difficulty then .won nonce found
  else if flag nonce then .cancelled nonce
  else if _last : nonce.toNat = 0xffffffffffffffff then .exhausted
  else Search.from digest difficulty flag (nonce + 1)
termination_by 0xffffffffffffffff - nonce.toNat
decreasing_by
  have bound := nonce.toNat_lt
  have next : (nonce + 1).toNat = nonce.toNat + 1 := by
    rw [UInt64.toNat_add]
    exact Nat.mod_eq_of_lt (by simp only [UInt64.reduceToNat]; omega)
  omega

/-- Why a nonce is not found. -/
inductive MiningError where
  | cancelled
  | exhausted
  deriving DecidableEq

def MiningError.message : MiningError → String
  | .cancelled => "nonce search was cancelled"
  | .exhausted => "no nonce meets the difficulty"

namespace Block

/-- Searches for the nonce of a block, whatever its own nonce is. -/
def search (block : Block) (hasher : Hasher) (flag : UInt64 → Bool) : Search :=
  let commitment := block.requestsHash
  Search.from (fun nonce => hasher (block.workPreimageAt commitment nonce)) block.difficulty flag 0

/-- The block after a search, and the number of nonces that were tried or why none won. -/
def mine (block : Block) (hasher : Hasher) (flag : UInt64 → Bool) :
    Except MiningError Nat × Block :=
  match block.search hasher flag with
  | .won nonce digest => (.ok (nonce.toNat + 1), { block with nonce }.sealWith digest)
  | .cancelled nonce => (.error .cancelled, { block with nonce })
  | .exhausted => (.error .exhausted, { block with nonce := 0xffffffffffffffff })

end Block

end DelayChain
