import DelayChain.Proofs.Settled

/-!
# Chains that blocks were appended to

Whatever blocks are offered, in whatever order, each that joins a chain stands on the one before and is
finalized. Appending asks for what the check of a block on its parent asks for, and for finality; so the
places that look at links agree, and a block that passed every check can always be appended.
-/

set_option autoImplicit false
set_option relaxedAutoImplicit false

namespace DelayChain

namespace Block

variable {block parent : Block}

private theorem checkDelay_eq_missingProof_iff {P : Delay.Parameters} {input : DelayInput} :
    block.checkDelay P input = .error .missingProof ↔ ¬block.IsFinalized := by
  unfold checkDelay IsFinalized
  cases block.proof with
  | none => simp only [Option.isSome_none, Bool.false_eq_true, and_false, not_false_eq_true]
  | some proof =>
    cases block.finalized with
    | false => simp only [if_true, Bool.false_eq_true, false_and, not_false_eq_true]
    | true =>
      -- from here on every fault is another one
      simp only [Bool.true_eq_false, if_false, Option.isSome_some, and_self, not_true_eq_false,
        iff_false]
      split
      · exact fun other => nomatch other
      · split
        · exact fun other => nomatch other
        · split
          · exact fun other => nomatch other
          · exact fun other => nomatch other

end Block

/-- What a chain calls a fault that the check of a block on its parent finds. -/
def ChainError.ofLink? : Rejection → Option ChainError
  | .wrongHeight tip found => some (.heightMismatch tip found)
  | .wrongParent => some .brokenLink
  | _ => none

namespace Chain

variable {chain grown : Chain} {block parent : Block} {error : ChainError} {position : Nat}

/-- The chain behind an append: where the block is refused, the one before. -/
def attempt (chain : Chain) (block : Block) : Chain := (chain.append block).toOption.getD chain

/-- The chain behind some appends, one after another. -/
def behind (chain : Chain) (blocks : List Block) : Chain := blocks.foldl attempt chain

private theorem append_of_checkExtends_eq_error {reason : Rejection}
    (fault : block.checkExtends chain.tip = .error reason) :
    ∃ error, ChainError.ofLink? reason = some error ∧ chain.append block = .error error := by
  unfold Block.checkExtends at fault
  unfold append
  by_cases height : block.height = chain.tip.height + 1
  · rw [if_neg (not_not.mpr height)] at fault ⊢
    by_cases link : block.parent = some chain.tip.hash
    · rw [if_neg (not_not.mpr link)] at fault
      exact nomatch fault
    · rw [if_pos link] at fault ⊢
      obtain rfl := Except.error.inj fault
      exact ⟨_, rfl, rfl⟩
  · rw [if_pos height] at fault ⊢
    obtain rfl := Except.error.inj fault
    exact ⟨_, rfl, rfl⟩

private theorem append_of_checkExtends_eq_ok (standing : block.checkExtends chain.tip = .ok ()) :
    chain.append block =
      if block.IsFinalized then .ok (chain.push block) else .error .notFinalized := by
  obtain ⟨height, link⟩ := Block.checkExtends_eq_ok_iff.mp standing
  rw [append, if_neg (not_not.mpr height), if_neg (not_not.mpr link), ite_not]

private theorem append_eq_ok_iff :
    chain.append block = .ok grown ↔
      block.checkExtends chain.tip = .ok () ∧ block.IsFinalized ∧ grown = chain.push block := by
  cases verdict : block.checkExtends chain.tip with
  | error reason =>
    obtain ⟨error, -, refused⟩ := append_of_checkExtends_eq_error verdict
    simp only [refused, reduceCtorEq, false_and]
  | ok =>
    rw [append_of_checkExtends_eq_ok verdict]
    by_cases final : block.IsFinalized
    · simp only [final, if_true, Except.ok.injEq, true_and, eq_comm]
    · simp only [final, if_false, reduceCtorEq, false_and, and_false]

private theorem append_eq_error_iff :
    chain.append block = .error error ↔
      (∃ reason, block.checkExtends chain.tip = .error reason ∧
        ChainError.ofLink? reason = some error) ∨
      (block.checkExtends chain.tip = .ok () ∧ ¬block.IsFinalized ∧ error = .notFinalized) := by
  cases verdict : block.checkExtends chain.tip with
  | error reason =>
    obtain ⟨named, name, refused⟩ := append_of_checkExtends_eq_error verdict
    simp only [refused, name, Except.error.injEq, exists_eq_left', Option.some.injEq, reduceCtorEq,
      false_and, or_false]
  | ok =>
    rw [append_of_checkExtends_eq_ok verdict]
    by_cases final : block.IsFinalized
    · simp only [final, if_true, reduceCtorEq, false_and, exists_false, not_true_eq_false, and_false,
        or_false]
    · simp only [final, if_false, Except.error.injEq, reduceCtorEq, false_and, exists_false,
        not_false_eq_true, true_and, false_or, eq_comm]

private theorem attempt_cases (chain : Chain) (block : Block) :
    (block.checkExtends chain.tip = .ok () ∧ block.IsFinalized ∧
        chain.attempt block = chain.push block) ∨
      chain.attempt block = chain := by
  cases result : chain.append block with
  | error error =>
    rw [attempt, result]
    exact .inr rfl
  | ok grown =>
    obtain ⟨standing, final, rfl⟩ := append_eq_ok_iff.mp result
    rw [attempt, result]
    exact .inl ⟨standing, final, rfl⟩

/-- What holds of a chain however blocks were appended to it: each block passes the check on the one before,
and all but the first are finalized. -/
structure Grown (genesis : Block) (chain : Chain) : Prop where
  genesis : chain.genesis = genesis
  follows : chain.blocks.IsChain fun parent block => block.checkExtends parent = .ok ()
  finalized : ∀ block ∈ chain.accepted, block.IsFinalized

namespace Grown

variable {genesis : Block}

private theorem ofGenesis (genesis : Block) : Grown genesis (ofGenesis genesis) where
  genesis := rfl
  follows := .singleton genesis
  finalized _ member := absurd member List.not_mem_nil

private theorem push (grown : Grown genesis chain) (standing : block.checkExtends chain.tip = .ok ())
    (final : block.IsFinalized) : Grown genesis (chain.push block) where
  genesis := grown.genesis
  follows := by
    refine grown.follows.append (.singleton block) ?_
    intro last isLast first isFirst
    rw [getLast?_blocks, Option.mem_some_iff] at isLast
    rw [List.head?_cons, Option.mem_some_iff] at isFirst
    rwa [← isLast, ← isFirst]
  finalized := by
    intro accepted member
    rcases List.mem_append.mp member with earlier | new
    · exact grown.finalized accepted earlier
    · rw [List.mem_singleton.mp new]
      exact final

private theorem attempt (grown : Grown genesis chain) (block : Block) :
    Grown genesis (chain.attempt block) := by
  rcases chain.attempt_cases block with ⟨standing, final, pushed⟩ | same
  · rw [pushed]
    exact grown.push standing final
  · rwa [same]

private theorem behind (grown : Grown genesis chain) (offered : List Block) :
    Grown genesis (chain.behind offered) := by
  induction offered generalizing chain with
  | nil => exact grown
  | cons block rest ih => exact ih (grown.attempt block)

private theorem follows_getElem (grown : Grown genesis chain)
    (before : chain.blocks[position]? = some parent)
    (after : chain.blocks[position + 1]? = some block) : block.checkExtends parent = .ok () := by
  obtain ⟨within, rfl⟩ := List.getElem?_eq_some_iff.mp after
  obtain ⟨-, rfl⟩ := List.getElem?_eq_some_iff.mp before
  exact List.isChain_iff_getElem.mp grown.follows position within

private theorem toNat_height (grown : Grown genesis chain)
    (small : ∀ block ∈ chain.blocks, block.height ≠ greatestHeight)
    (found : chain.blocks[position]? = some block) :
    block.height.toNat = genesis.height.toNat + position := by
  induction position generalizing block with
  | zero =>
    obtain rfl : chain.genesis = block := Option.some.inj found
    rw [grown.genesis, Nat.add_zero]
  | succ position ih =>
    obtain ⟨within, -⟩ := List.getElem?_eq_some_iff.mp found
    have before := List.getElem?_eq_getElem (Nat.lt_of_succ_lt within)
    have standing := Block.checkExtends_eq_ok_iff.mp (grown.follows_getElem before found)
    rw [standing.1, toNat_height_succ (small _ (List.getElem_mem _)), ih before, Nat.add_assoc]

end Grown

private theorem linkedFrom_eq_true_iff (parent : Block) (blocks : List Block) :
    linkedFrom parent blocks = true ↔
      (parent :: blocks).IsChain fun parent block => block.checkExtends parent = .ok () := by
  induction blocks generalizing parent with
  | nil => exact ⟨fun _ => .singleton parent, fun _ => rfl⟩
  | cons block rest ih =>
    rw [linkedFrom, List.isChain_cons_cons, ← ih block, Bool.and_eq_true, Bool.and_eq_true, beq_iff_eq,
      beq_iff_eq, Block.checkExtends_eq_ok_iff]

private theorem isLinked_eq_true_iff :
    chain.isLinked = true ↔ chain.genesis.IsGenesis ∧
      chain.blocks.IsChain fun parent block => block.checkExtends parent = .ok () := by
  rw [isLinked, Bool.and_eq_true, decide_eq_true_eq, linkedFrom_eq_true_iff]
  rfl

private theorem mem_blocks_behind {offered : List Block}
    (member : block ∈ (chain.behind offered).blocks) :
    block ∈ chain.blocks ∨ block ∈ offered := by
  induction offered generalizing chain with
  | nil => exact .inl member
  | cons first rest ih =>
    rcases @ih (chain.attempt first) member with before | later
    · rcases chain.attempt_cases first with ⟨-, -, pushed⟩ | same
      · rw [pushed] at before
        have among : block ∈ chain.blocks ++ [first] := before
        rcases List.mem_append.mp among with earlier | new
        · exact .inl earlier
        · rw [List.mem_singleton.mp new]
          exact .inr List.mem_cons_self
      · rw [same] at before
        exact .inl before
    · exact .inr (List.mem_cons_of_mem _ later)

end Chain

namespace Node

variable {node : Node} {chain : Chain} {block : Block}

private theorem accept_ne_chain_error (error : ChainError) :
    (node.accept chain block).1 ≠ .error (.chain error) := by
  have offered := node.offer_accept chain block
  generalize node.accept chain block = result at offered ⊢
  cases offered with
  | refused reason fault => exact fun same => nomatch same
  | joined passed steady => exact fun same => nomatch same
  | retargeted passed change schedule made => exact fun same => nomatch same
  | stuck passed change reason refusal => exact fun same => nomatch same

end Node

namespace Chain

/-- Blocks appended one after another to a first one, each taken or refused: the heights count up from the
first, if none of the blocks given is at the greatest height; each block but the first refers to the hash of
the one before and is finalized with a proof; and the chain is linked exactly if the first block is a genesis
block. The next block is taken exactly if it passes the check on the tip and is finalized, and where it is
refused, for the reason of that check or for want of finality, the chain stays. A block is finalized exactly
if the check of its delay finds a proof; so what passed every check of a node on the tip is appended, and no
offer to a node fails at the append. -/
theorem grown_chain (genesis : Block) (given : List Block) :
    let chain := (ofGenesis genesis).behind given
    ((∀ block ∈ genesis :: given, block.height ≠ greatestHeight) →
      ∀ (position : Nat) (block : Block), chain.blocks[position]? = some block →
        block.height.toNat = genesis.height.toNat + position) ∧
    (∀ (position : Nat) (parent block : Block), chain.blocks[position]? = some parent →
      chain.blocks[position + 1]? = some block →
        block.parent = some parent.hash ∧ block.finalized = true ∧ block.proof.isSome = true) ∧
    (chain.isLinked = true ↔ genesis.IsGenesis) ∧
    ∀ block : Block,
      (∀ grown, chain.append block = .ok grown ↔
        block.checkExtends chain.tip = .ok () ∧ block.IsFinalized ∧ grown = chain.push block) ∧
      (∀ error, chain.append block = .error error ↔
        (∃ reason, block.checkExtends chain.tip = .error reason ∧
          ChainError.ofLink? reason = some error) ∨
        (block.checkExtends chain.tip = .ok () ∧ ¬block.IsFinalized ∧ error = .notFinalized)) ∧
      (∀ error, chain.append block = .error error → chain.attempt block = chain) ∧
      (∀ P input, block.checkDelay P input = .error .missingProof ↔ ¬block.IsFinalized) ∧
      ∀ node : Node,
        (node.rules.checkOn node.schedule chain.tip block = .ok () →
          chain.append block = .ok (chain.push block)) ∧
        ∀ error, (node.accept chain block).1 ≠ .error (.chain error) := by
  have grown : Grown genesis ((ofGenesis genesis).behind given) := (Grown.ofGenesis genesis).behind given
  refine ⟨?_, ?_, ?_, ?_⟩
  · intro small position block found
    refine grown.toNat_height ?_ found
    intro member among
    rcases mem_blocks_behind among with first | later
    · rw [List.mem_singleton.mp first]
      exact small genesis List.mem_cons_self
    · exact small member (List.mem_cons_of_mem _ later)
  · intro position parent block before after
    obtain ⟨-, link⟩ := Block.checkExtends_eq_ok_iff.mp (grown.follows_getElem before after)
    exact ⟨link, grown.finalized block (List.mem_of_getElem? after)⟩
  · rw [isLinked_eq_true_iff, grown.genesis]
    exact and_iff_left grown.follows
  · intro block
    refine ⟨fun _ => append_eq_ok_iff, fun _ => append_eq_error_iff, ?_,
      fun _ _ => Block.checkDelay_eq_missingProof_iff,
      fun _ => ⟨append_of_checkOn, Node.accept_ne_chain_error⟩⟩
    intro error refused
    rw [attempt, refused]
    rfl

/-- A first block at height seven with a parent, two blocks on it, and one between them that stands
elsewhere. -/
theorem grown_chain_from_seven :
    ∃ first second third : Block,
      let chain := (ofGenesis first).behind [second, second, third]
      first.height = 7 ∧ chain.blocks = [first, second, third] ∧ third.height.toNat = 7 + 2 ∧
        third.parent = some second.hash ∧ chain.isLinked = false ∧
        chain.append second = .error (.heightMismatch 9 8) ∧ chain.attempt second = chain := by
  let first : Block :=
    { Block.rehearsed Block.genesis 0 with height := 7, parent := some "elsewhere" }
  let second : Block := .rehearsed first 0
  let third : Block := .rehearsed second 0
  have chained : ((ofGenesis first).behind [second, second, third]).blocks =
      [first, second, third] := by decide +kernel
  obtain ⟨heights, links, linked, next⟩ := grown_chain first [second, second, third]
  have small : ∀ block ∈ [first, second, second, third], block.height ≠ greatestHeight := by
    decide +kernel
  have counted := heights small 2 third (by rw [chained]; rfl)
  obtain ⟨link, -⟩ := links 1 second third (by rw [chained]; rfl) (by rw [chained]; rfl)
  obtain ⟨-, -, stays, -⟩ := next second
  have refused : ((ofGenesis first).behind [second, second, third]).append second =
      .error (.heightMismatch 9 8) := by decide +kernel
  refine ⟨first, second, third, rfl, chained, counted, link, ?_, refused, stays _ refused⟩
  exact Bool.eq_false_iff.mpr fun holds => absurd (linked.mp holds) (by decide)

end Chain

end DelayChain
