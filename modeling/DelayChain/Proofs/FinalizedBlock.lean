import DelayChain.Proofs.Phases
import DelayChain.Proofs.Preimages

/-!
# Which block is finalized

A finalization is held to the work hash of the last proposal, and to nothing else: the work hash is the
one a block carries, not one computed from it. So whatever block carries it is finalized wherever its
delay can be proved. Only if its work hash is that of its contents does it have the parent, requests,
nonce and difficulty of the proposal, or else the hasher collides; height and time stay free even then.
-/

set_option autoImplicit false
set_option relaxedAutoImplicit false

namespace DelayChain

namespace Block

variable {a b : Block}

/-- Two blocks have everything in common that is settled once a block is mined. -/
structure SharesContents (a b : Block) : Prop where
  height : a.height = b.height
  parent : a.parent = b.parent
  requests : a.requests = b.requests
  timestamp : a.timestamp = b.timestamp
  nonce : a.nonce = b.nonce
  difficulty : a.difficulty = b.difficulty
  workHash : a.workHash = b.workHash

/-- Two blocks have in common what the text of their work hash tells apart. -/
structure SharesWork (a b : Block) : Prop where
  parent : a.parent.getD "" = b.parent.getD ""
  requests : a.requestsHash = b.requestsHash
  nonce : a.nonce = b.nonce
  difficulty : a.difficulty = b.difficulty

private theorem sharesWork_iff : a.SharesWork b ↔ a.workPreimage = b.workPreimage := by
  constructor
  · intro shared
    rw [workPreimage, workPreimage, workPreimageAt, workPreimageAt, shared.parent, shared.requests,
      shared.nonce, shared.difficulty]
  · intro same
    obtain ⟨parent, requests, nonce, difficulty⟩ := eq_of_workPreimage_eq same
    exact ⟨parent, requests, nonce, difficulty⟩

private theorem sharesContents_attach_iff {proof : Delay.Proof} {hasher : Hasher} :
    (a.attach proof hasher).SharesContents b ↔ a.SharesContents b :=
  ⟨fun ⟨height, parent, requests, timestamp, nonce, difficulty, workHash⟩ =>
      ⟨height, parent, requests, timestamp, nonce, difficulty, workHash⟩,
    fun ⟨height, parent, requests, timestamp, nonce, difficulty, workHash⟩ =>
      ⟨height, parent, requests, timestamp, nonce, difficulty, workHash⟩⟩

end Block

namespace Answer

variable {answers : List Answer} {answer : Answer} {mined mined' : MinedBlock}

theorem proposes_of_proposal (proposal : answer.proposal? = some mined) : answer.Proposes := by
  unfold proposal? at proposal
  split at proposal
  · trivial
  · trivial
  · exact nomatch proposal

private theorem Awaited.unique (awaited : Awaited answers mined) (awaited' : Awaited answers mined') :
    mined = mined' := by
  obtain ⟨earlier, proposal, later, rfl, found, silent⟩ := awaited
  obtain ⟨earlier', proposal', later', split, found', silent'⟩ := awaited'
  rcases eq_or_mem_of_append_cons_eq split with rfl | behind | behind
  · exact Option.some.inj (found.symm.trans found')
  · exact absurd (proposes_of_proposal found') (silent proposal' behind).1
  · exact absurd (proposes_of_proposal found) (silent' proposal behind).1

end Answer

namespace Node

variable {node : Node} {answers : List Answer} {rules : Rules} {now : Int64} {mined : MinedBlock}
  {block : Block}

private theorem Tracked.computed_of_awaited (tracked : Tracked rules answers node)
    (awaited : Answer.Awaited answers mined) :
    mined.workHash = mined.block.computeWorkHash rules.hasher := by
  obtain ⟨earlier, answer, later, rfl, found, -⟩ := awaited
  exact tracked.computed answer (List.mem_append_right _ List.mem_cons_self) mined found

private theorem Tracked.finalize_eq_ok_iff (tracked : Tracked rules answers node) :
    (node.finalize now mined).1 = .ok block ↔
      node.phase = .powDone ∧
      (∃ proposal, Answer.Awaited answers proposal ∧ mined.workHash = proposal.workHash) ∧
      mined.finalize rules.delay rules.input rules.hasher now = .ok block := by
  have holdsTo := tracked.holdsTo
  subst holdsTo
  constructor
  · intro finalized
    obtain ⟨ready, -, awaited⟩ := tracked.awaited_of_finalize finalized
    refine ⟨ready, awaited, ?_⟩
    have finalization := node.finalization_finalize now mined
    generalize node.finalize now mined = result at finalization finalized
    cases finalization with
    | early closed => exact nomatch finalized
    | foreign ready other => exact nomatch finalized
    | unproven ready own error failed => exact nomatch finalized
    | done ready own block attached =>
      cases finalized
      exact attached
  · rintro ⟨ready, ⟨proposal, awaited, same⟩, attached⟩
    have own : node.proposed = some mined.workHash := by
      obtain ⟨waiting, awaited', held⟩ := tracked.waits ready
      rw [held, same, awaited'.unique awaited]
    have finalization := node.finalization_finalize now mined
    generalize node.finalize now mined = result at finalization ⊢
    cases finalization with
    | early closed => exact absurd ready closed
    | foreign ready other => exact absurd own other
    | unproven ready own error failed => exact nomatch failed.symm.trans attached
    | done ready own block' attached' =>
      cases attached'.symm.trans attached
      rfl

/-- Behind any calls to a new node, a block is finalized exactly if it carries the work hash of the
proposal that waits and its delay is proved. What comes of it shares the contents of the proposal exactly
if the block did. A block whose work hash is that of its contents does so in parent, requests, nonce and
difficulty, or shows a collision; under every height and at every time, the rest of the proposal is such
a block. -/
theorem finalize_eq_ok_iff_awaited (rules : Rules) (adjuster : Difficulty.Adjuster)
    (maxRequests : Nat) (schedule : Schedule) (calls : List Call) (now : Int64) :
    let run := (start rules adjuster maxRequests schedule).answers calls
    (∀ mined block, (run.2.finalize now mined).1 = .ok block ↔
      run.2.phase = .powDone ∧
      (∃ proposal, Answer.Awaited run.1 proposal ∧ mined.workHash = proposal.workHash) ∧
      ∃ proof, Delay.prove rules.delay now
          (rules.input.bytes mined.workHash mined.block.timestamp) = .ok proof ∧
        block = mined.block.attach proof rules.hasher) ∧
    (∀ proposal mined block, Answer.Awaited run.1 proposal →
      (run.2.finalize now mined).1 = .ok block →
        block.workHash = some proposal.workHash ∧
        (block.SharesContents proposal.block ↔ mined.block.SharesContents proposal.block) ∧
        (mined.workHash = mined.block.computeWorkHash rules.hasher →
          mined.block.SharesWork proposal.block ∨
          mined.block.workPreimage ≠ proposal.block.workPreimage ∧
            rules.hasher mined.block.workPreimage = rules.hasher proposal.block.workPreimage)) ∧
    ∀ proposal, Answer.Awaited run.1 proposal → run.2.phase = .powDone →
      ∀ height timestamp proof,
        Delay.prove rules.delay now (rules.input.bytes proposal.workHash timestamp) = .ok proof →
          ∃ mined : MinedBlock, mined.block = { proposal.block with height, timestamp } ∧
            mined.workHash = mined.block.computeWorkHash rules.hasher ∧
            (run.2.finalize now mined).1 = .ok (mined.block.attach proof rules.hasher) := by
  intro run
  have tracked : Tracked rules run.1 run.2 :=
    (tracked_start rules adjuster maxRequests schedule).run calls
  refine ⟨fun mined block => ?_, ?_, ?_⟩
  · rw [tracked.finalize_eq_ok_iff, MinedBlock.finalize_eq_ok_iff]
  · intro proposal mined block awaited finalized
    obtain ⟨-, ⟨proposal', awaited', same⟩, attached⟩ := tracked.finalize_eq_ok_iff.mp finalized
    obtain rfl := awaited'.unique awaited
    obtain ⟨proof, -, rfl⟩ := MinedBlock.finalize_eq_ok_iff.mp attached
    refine ⟨mined.isSealed.trans (congrArg some same), Block.sharesContents_attach_iff, ?_⟩
    intro computed
    have digests : rules.hasher mined.block.workPreimage =
        rules.hasher proposal'.block.workPreimage :=
      computed.symm.trans (same.trans (tracked.computed_of_awaited awaited))
    by_cases texts : mined.block.workPreimage = proposal'.block.workPreimage
    · exact .inl (Block.sharesWork_iff.mpr texts)
    · exact .inr ⟨texts, digests⟩
  · intro proposal awaited ready height timestamp proof proved
    -- the work hash covers neither height nor time
    let mined : MinedBlock :=
      ⟨{ proposal.block with height, timestamp }, proposal.workHash, proposal.isSealed⟩
    have computed := tracked.computed_of_awaited awaited
    have attached : mined.finalize rules.delay rules.input rules.hasher now =
        .ok (mined.block.attach proof rules.hasher) :=
      MinedBlock.finalize_eq_ok_iff.mpr ⟨proof, proved, rfl⟩
    exact ⟨mined, rfl, computed,
      tracked.finalize_eq_ok_iff.mpr ⟨ready, ⟨proposal, awaited, rfl⟩, attached⟩⟩

/-- Behind a proposal, a block of another height, parent, requests, time, nonce and difficulty is
finalized under its work hash. -/
theorem finalize_of_other_contents :
    ∃ calls proposal mined block,
      calls = [.propose 0 Block.genesis []] ∧
      let run := (rehearsal (.constant 1)).answers calls
      Answer.Awaited run.1 proposal ∧ (run.2.finalize 0 mined).1 = .ok block ∧
        block.workHash = some proposal.workHash ∧ ¬block.SharesContents proposal.block := by
  let node : Node := rehearsal (.constant 1)
  let sealedGenesis : MinedBlock := ⟨Block.genesis.sealWith "0", "0", rfl⟩
  let proposal : MinedBlock := (node.propose 0 Block.genesis []).1.toOption.getD sealedGenesis
  let mined : MinedBlock :=
    ⟨{ proposal.block with
        height := 9
        parent := some "elsewhere"
        requests := [⟨"t", 7, 0, "pay 4", "00"⟩]
        timestamp := 1
        nonce := 5
        difficulty := 0
        workHash := some proposal.workHash }, proposal.workHash, rfl⟩
  let calls : List Call := [.propose 0 Block.genesis []]
  have found : (node.answer (.propose 0 Block.genesis [])).1.proposal? = some proposal := by
    decide +kernel
  have awaited : Answer.Awaited (node.answers calls).1 proposal :=
    ⟨[], _, [], rfl, found, fun _ member => absurd member List.not_mem_nil⟩
  have finalizes : ((node.answers calls).2.finalize 0 mined).1.isOk = true := by decide +kernel
  have other : mined.block.height ≠ proposal.block.height := by decide +kernel
  cases finalized : ((node.answers calls).2.finalize 0 mined).1 with
  | error failure =>
    rw [finalized] at finalizes
    exact absurd finalizes Bool.false_ne_true
  | ok block =>
    obtain ⟨-, behind, -⟩ := finalize_eq_ok_iff_awaited node.rules node.adjuster node.maxRequests
      (.constant 1) calls 0
    obtain ⟨workHash, shares, -⟩ := behind proposal mined block awaited finalized
    exact ⟨calls, proposal, mined, block, rfl, awaited, finalized, workHash,
      fun shared => other (shares.mp shared).height⟩

end Node

end DelayChain
