import DelayChain.Proofs.Checks
import DelayChain.Proofs.Halving
import DelayChain.Proofs.NonceSearch

/-!
# The blocks a node makes pass its own checks

A search that is won gives a nonce whose digest meets the difficulty, so a proposal is a sealed child
of its parent. Attaching a delay proof touches nothing that the work hash covers, and prover and
validator draw one input from one block; the finalized block passes every check of its maker.
-/

set_option autoImplicit false
set_option relaxedAutoImplicit false

namespace DelayChain

theorem Search.of_from_eq_won {digest : UInt64 → String} {difficulty : UInt32}
    {flag : UInt64 → Bool} {first nonce : UInt64} {found : String}
    (won : Search.from digest difficulty flag first = .won nonce found) :
    found = digest nonce ∧ Hasher.Meets found difficulty := by
  have ends := ends_from digest difficulty flag first
  rw [won] at ends
  cases ends with
  | won nonce reaches meets => exact ⟨rfl, meets⟩

namespace Search

variable {digest : UInt64 → String} {difficulty : UInt32} {flag : UInt64 → Bool} {nonce : UInt64}

theorem from_eq_won (met : Hasher.Meets (digest nonce) difficulty) :
    Search.from digest difficulty flag nonce = .won nonce (digest nonce) := by
  rw [Search.from]
  exact if_pos met

theorem from_eq_cancelled (lost : ¬Hasher.Meets (digest nonce) difficulty) (set : flag nonce = true) :
    Search.from digest difficulty flag nonce = .cancelled nonce := by
  rw [Search.from, if_neg lost, if_pos set]

theorem from_eq_next (lost : ¬Hasher.Meets (digest nonce) difficulty) (goesOn : flag nonce = false)
    (further : nonce.toNat ≠ 0xffffffffffffffff) :
    Search.from digest difficulty flag nonce = Search.from digest difficulty flag (nonce + 1) := by
  rw [Search.from, if_neg lost, goesOn, if_neg Bool.false_ne_true, dif_neg further]

end Search

/-- A mined block is a sealed child of a parent: it stands on it with the given requests, at the
difficulty that the schedule demands, and its work hash is the digest of its contents and meets that
difficulty. -/
structure MinedBlock.IsChildOf (mined : MinedBlock) (hasher : Hasher) (schedule : Schedule)
    (parent : Block) (requests : List Request) : Prop where
  height : mined.block.height = parent.height + 1
  link : mined.block.parent = some parent.hash
  requests : mined.block.requests = requests
  difficulty : mined.block.difficulty = schedule.difficultyAt (parent.height + 1)
  workHash : mined.workHash = mined.block.computeWorkHash hasher
  meets : Hasher.Meets mined.workHash mined.block.difficulty

theorem Block.isChildOf_of_propose {parent : Block} {hasher : Hasher} {schedule : Schedule}
    {maxRequests : Nat} {now : Int64} {requests : List Request} {flag : UInt64 → Bool}
    {mined : MinedBlock}
    (proposed : parent.propose hasher schedule maxRequests now requests flag = .ok mined) :
    mined.IsChildOf hasher schedule parent requests := by
  unfold propose at proposed
  split at proposed
  · exact nomatch proposed
  · dsimp only at proposed
    cases searched : (parent.child schedule now requests).search hasher flag with
    | cancelled nonce =>
      rw [searched] at proposed
      exact nomatch proposed
    | exhausted =>
      rw [searched] at proposed
      exact nomatch proposed
    | won nonce digest =>
      rw [searched] at proposed
      obtain rfl := (Except.ok.inj proposed).symm
      obtain ⟨computed, meets⟩ := Search.of_from_eq_won searched
      exact
        { height := rfl
          link := rfl
          requests := rfl
          difficulty := rfl
          workHash := computed
          meets }

theorem MinedBlock.finalize_eq_ok_iff {mined : MinedBlock} {P : Delay.Parameters}
    {input : DelayInput} {hasher : Hasher} {now : Int64} {block : Block} :
    mined.finalize P input hasher now = .ok block ↔
      ∃ proof, Delay.prove P now (input.bytes mined.workHash mined.block.timestamp) = .ok proof ∧
        block = mined.block.attach proof hasher := by
  unfold finalize
  cases Delay.prove P now (input.bytes mined.workHash mined.block.timestamp) with
  | error error => simp
  | ok proof => simp [eq_comm]

/-- Every request that is given passes wherever senders are registered. -/
def Rules.Covers (rules : Rules) (requests : List Request) : Prop :=
  ∀ keys, rules.senders = some keys → ∀ request ∈ requests, keys.check request = .ok ()

namespace Rules

variable {rules : Rules} {schedule : Schedule} {parent : Block} {requests : List Request}
  {mined : MinedBlock} {now : Int64} {block : Block}

private theorem Covers.checkRequests (covered : rules.Covers requests)
    (holds : block.requests = requests) : rules.checkRequests block = .ok () := by
  unfold Rules.checkRequests
  cases senders : rules.senders with
  | none => rfl
  | some keys =>
    rw [holds]
    exact Block.checkRequests_eq_ok_iff.mpr (covered keys senders)

private theorem checkWork_attach (child : mined.IsChildOf rules.hasher schedule parent requests)
    (proof : Delay.Proof) :
    (mined.block.attach proof rules.hasher).checkWork rules.hasher
      (schedule.difficultyAt (mined.block.attach proof rules.hasher).height) = .ok () := by
  -- the proof, the time parameter and the block hash are not part of what the work hash covers
  have covers : (mined.block.attach proof rules.hasher).computeWorkHash rules.hasher =
      mined.workHash := child.workHash.symm
  have height : (mined.block.attach proof rules.hasher).height = parent.height + 1 := child.height
  refine Block.checkWork_eq_ok_iff.mpr ⟨?_, ?_, ?_⟩
  · rw [covers]
    exact mined.isSealed
  · rw [height, ← child.difficulty]
    exact UInt32.le_refl _
  · rw [covers]
    exact child.meets

private theorem checkDelay_attach {proof : Delay.Proof}
    (proved : Delay.prove rules.delay now
      (rules.input.bytes mined.workHash mined.block.timestamp) = .ok proof) :
    (mined.block.attach proof rules.hasher).checkDelay rules.delay rules.input = .ok () := by
  have drawn : rules.input.ofBlock? (mined.block.attach proof rules.hasher) =
      some (rules.input.bytes mined.workHash mined.block.timestamp) := by
    change mined.block.workHash.map (rules.input.bytes · mined.block.timestamp) = _
    rw [mined.isSealed]
    rfl
  obtain ⟨mus, found, rfl⟩ := Delay.exists_of_prove_eq_ok proved
  exact Block.checkDelay_eq_ok_iff.mpr
    ⟨_, _, rfl, rfl, rfl, drawn, Delay.verify_of_midpoints_eq_ok found now⟩

/-- A child that a node mined and finalized passes on its parent, by the rules and the schedule that
it was made with. -/
theorem checkOn_of_finalize (child : mined.IsChildOf rules.hasher schedule parent requests)
    (covered : rules.Covers requests)
    (finalized : mined.finalize rules.delay rules.input rules.hasher now = .ok block) :
    rules.checkOn schedule parent block = .ok () := by
  obtain ⟨proof, proved, rfl⟩ := MinedBlock.finalize_eq_ok_iff.mp finalized
  refine checkOn_eq_ok_iff.mpr ⟨?_, check_eq_ok_iff.mpr ⟨?_, ?_, ?_, ?_⟩⟩
  · exact Block.checkExtends_eq_ok_iff.mpr ⟨child.height, child.link⟩
  · exact checkWork_attach child proof
  · -- the hash is computed from everything but itself
    rfl
  · exact covered.checkRequests child.requests
  · exact checkDelay_attach proved

end Rules

end DelayChain
