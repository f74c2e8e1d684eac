import DelayChain.Block.Basic

/-!
# The chain

The accepted blocks on top of a first block. Appending guards linkage and finality only: whether the
proofs hold is decided before.
-/

set_option autoImplicit false
set_option relaxedAutoImplicit false

namespace DelayChain

/-- Why a block does not join the chain. -/
inductive ChainError where
  | heightMismatch (tip found : UInt64)
  | brokenLink
  | notFinalized
  deriving DecidableEq

def ChainError.message : ChainError → String
  | .heightMismatch tip found => s!"block at height {found} does not follow tip height {tip}"
  | .brokenLink => "block does not reference the tip hash"
  | .notFinalized => "only finalized blocks can join the chain"

/-- A first block and the blocks accepted after it, oldest first. -/
structure Chain where
  genesis : Block
  accepted : List Block
  deriving DecidableEq

namespace Chain

/-- The chain of a first block alone. -/
def ofGenesis (genesis : Block) : Chain := ⟨genesis, []⟩

/-- Every block, oldest first. -/
def blocks (chain : Chain) : List Block := chain.genesis :: chain.accepted

def tip (chain : Chain) : Block := chain.accepted.getLast?.getD chain.genesis

def height (chain : Chain) : UInt64 := chain.tip.height

/-- The newest blocks, at most as many as asked for, oldest first. -/
def recent (chain : Chain) (count : Nat) : List Block :=
  chain.blocks.drop (chain.blocks.length - count)

/-- The chain with one block more, whatever the block is. -/
def push (chain : Chain) (block : Block) : Chain :=
  { chain with accepted := chain.accepted ++ [block] }

/-- Adds a block that extends the tip and is finalized. -/
def append (chain : Chain) (block : Block) : Except ChainError Chain :=
  if block.height ≠ chain.tip.height + 1 then
    .error (.heightMismatch chain.tip.height block.height)
  else if block.parent ≠ some chain.tip.hash then .error .brokenLink
  else if ¬block.IsFinalized then .error .notFinalized
  else .ok (chain.push block)

/-- Each block stands one above the one before and refers to its hash. -/
def linkedFrom (previous : Block) : List Block → Bool
  | [] => true
  | block :: rest =>
    block.height == previous.height + 1 && block.parent == some previous.hash &&
      linkedFrom block rest

/-- The chain begins with a first block and every block is linked to the one before. -/
def isLinked (chain : Chain) : Bool :=
  decide chain.genesis.IsGenesis && linkedFrom chain.genesis chain.accepted

end Chain

end DelayChain
