import DelayChain.Proofs.Acceptance
import DelayChain.Proofs.Cycle
import DelayChain.Proofs.Proposal

/-!
# A node accepts its own blocks

A node that works on its own chain with a schedule of its own never meets a refusal: each block it
makes passes its check and joins its chain, and the schedule takes every change of difficulty, since
its newest entry never stands more than one above the tip.
-/

set_option autoImplicit false
set_option relaxedAutoImplicit false

namespace DelayChain

namespace Node

variable {node node' : Node} {now later : Int64} {parent block : Block} {requests : List Request}
  {mined : MinedBlock} {failure : Failure}

theorem isChildOf_of_propose (proposed : node.propose now parent requests = (.ok mined, node')) :
    mined.IsChildOf node.rules.hasher node.schedule parent requests := by
  unfold propose at proposed
  dsimp only at proposed
  cases searched : node.beginCycle.mineChild now parent requests with
  | error error =>
    rw [searched] at proposed
    exact nomatch proposed
  | ok found =>
    rw [searched] at proposed
    cases proposed
    exact Block.isChildOf_of_propose searched

theorem finalize_of_eq_ok (finalized : node.finalize now mined = (.ok block, node')) :
    mined.finalize node.rules.delay node.rules.input node.rules.hasher now = .ok block := by
  have finalization := node.finalization_finalize now mined
  rw [finalized] at finalization
  cases finalization with
  | done ready own _ attached => exact attached

theorem checkOn_of_make (covered : node.rules.Covers requests)
    (made : node.make now later parent requests = (.ok block, node')) :
    node.rules.checkOn node.schedule parent block = .ok () := by
  have agrees := node.agrees_propose now parent requests
  unfold make at made
  cases proposed : node.propose now parent requests with
  | mk result proposer =>
    rw [proposed] at made agrees
    cases result with
    | error failure => exact nomatch made
    | ok mined =>
      have attached := finalize_of_eq_ok made
      rw [agrees.rules] at attached
      exact Rules.checkOn_of_finalize (isChildOf_of_propose proposed) covered attached

private theorem fst_check (node : Node) (block : Block) :
    (node.check block).1 = node.rules.check node.schedule block := by
  unfold check
  split
  · next passed => exact passed.symm
  · next fault => exact fault.symm

private theorem propose_ne_rejected
    (failed : node.propose now parent requests = (.error failure, node')) (reason : Rejection) :
    failure ≠ .rejected reason := by
  rintro rfl
  unfold propose at failed
  dsimp only at failed
  split at failed
  · exact nomatch failed
  · exact nomatch failed

private theorem finalize_ne_rejected (failed : node.finalize now mined = (.error failure, node'))
    (reason : Rejection) : failure ≠ .rejected reason := by
  rintro rfl
  have finalization := node.finalization_finalize now mined
  rw [failed] at finalization
  exact nomatch finalization

private theorem make_ne_rejected
    (failed : node.make now later parent requests = (.error failure, node'))
    (reason : Rejection) : failure ≠ .rejected reason := by
  unfold make at failed
  split at failed
  · next proposer unproposed =>
    cases failed
    exact propose_ne_rejected unproposed reason
  · exact finalize_ne_rejected failed reason

private theorem produce_ne_rejected (covered : node.rules.Covers requests) (reason : Rejection) :
    (node.produce now later parent requests).1 ≠ .error (.rejected reason) := by
  have agrees := node.agrees_make now later parent requests
  unfold produce
  cases made : node.make now later parent requests with
  | mk result node' =>
    rw [made] at agrees
    cases result with
    | error failure =>
      intro refused
      exact make_ne_rejected made reason (Except.error.inj refused)
    | ok block =>
      obtain ⟨-, passed⟩ := Rules.checkOn_eq_ok_iff.mp (checkOn_of_make covered made)
      rw [← agrees.rules, ← agrees.schedule, ← fst_check] at passed
      dsimp only
      generalize node'.check block = checked at passed ⊢
      obtain ⟨verdict, node''⟩ := checked
      cases passed
      exact fun refused => nomatch refused

end Node

/-- If a block comes of the round, it passes its check and joins the chain. -/
def RoundEnd.Welcome : RoundEnd → Prop
  | .failed _ => True
  | .judged checked accepted => checked = .ok () ∧ accepted = .ok ()

namespace Session

/-- What comes of a round on a session, seen from the session. -/
inductive Played (session : Session) (round : Round) : Option (RoundEnd × Session) → Prop
  /-- The proposal needs a height behind the greatest. -/
  | unproposed
      (overflow : session.node.ProposalOverflows session.chain.tip round.requests) :
      Played session round none
  /-- There is no block. -/
  | failed (failure : Failure) (node : Node) (agrees : session.node.Agrees node) :
      Played session round (some (.failed failure, ⟨node, session.chain⟩))
  /-- The acceptance needs a height behind the greatest. -/
  | unaccepted (block : Block) (node : Node)
      (overflow : node.AcceptanceOverflows session.chain block) : Played session round none
  /-- The block is judged, by the check and by the chain. -/
  | judged (block : Block) (checked : Except Rejection Unit) (node : Node)
      (agrees : session.node.Agrees node)
      (passes : session.node.rules.Covers round.requests →
        checked = .ok () ∧ node.rules.checkOn node.schedule session.chain.tip block = .ok ())
      (timely : ¬node.AcceptanceOverflows session.chain block) :
      Played session round
        (some (.judged checked (node.accept session.chain block).1,
          ⟨(node.accept session.chain block).2.1, (node.accept session.chain block).2.2⟩))

private theorem played_round? (session : Session) (round : Round) :
    session.Played round (session.round? round) := by
  have making := session.node.agrees_make round.now round.later session.chain.tip round.requests
  unfold round?
  split
  · next overflow => exact .unproposed overflow
  · split
    · next failure node failed =>
      rw [failed] at making
      exact .failed failure node making
    · next block node made =>
      rw [made] at making
      have checking := node.agrees_check block
      have agrees := making.trans checking
      dsimp only
      split
      · next overflow => exact .unaccepted block _ overflow
      · next timely =>
        refine .judged block _ _ agrees ?_ timely
        intro covered
        have passed := Node.checkOn_of_make covered made
        obtain ⟨-, alone⟩ := Rules.checkOn_eq_ok_iff.mp passed
        rw [Node.fst_check, making.rules, making.schedule, agrees.rules, agrees.schedule]
        exact ⟨alone, passed⟩

theorem exists_of_rounds?_cons {session last : Session} {round : Round} {rest : List Round}
    {ends : List RoundEnd} (played : session.rounds? (round :: rest) = some (ends, last)) :
    ∃ roundEnd next restEnds, session.round? round = some (roundEnd, next) ∧
      next.rounds? rest = some (restEnds, last) ∧ ends = roundEnd :: restEnds := by
  unfold rounds? at played
  split at played
  · exact nomatch played
  · next roundEnd next one =>
    obtain ⟨⟨restEnds, final⟩, others, together⟩ := Option.map_eq_some_iff.mp played
    cases together
    exact ⟨roundEnd, next, restEnds, one, others, rfl⟩

/-- The newest entry of the schedule stands at most one above the tip. -/
def Paced (session : Session) : Prop :=
  session.node.schedule.latest.1.toNat ≤ session.chain.height.toNat + 1

theorem paced_start {node : Node} {initial : UInt32} (constant : node.schedule = .constant initial)
    (genesis : Block) : (start node genesis).Paced := by
  change node.schedule.latest.1.toNat ≤ _
  rw [constant]
  exact Nat.zero_le _

namespace Paced

variable {node node' : Node} {chain : Chain} {block : Block}

theorem of_agrees (paced : Paced ⟨node, chain⟩) (agrees : node.Agrees node') :
    Paced ⟨node', chain⟩ := by
  change node'.schedule.latest.1.toNat ≤ _
  rw [agrees.schedule]
  exact paced

/-- A paced session takes a block that passes on its tip, and stays paced. The schedule cannot refuse
the change: its newest entry stands at the height of the block at most. -/
theorem accept (paced : Paced ⟨node, chain⟩) (timely : ¬node.AcceptanceOverflows chain block)
    (passed : node.rules.checkOn node.schedule chain.tip block = .ok ()) :
    (node.accept chain block).1 = .ok () ∧
      Paced ⟨(node.accept chain block).2.1, (node.accept chain block).2.2⟩ := by
  have next : block.height.toNat = chain.height.toNat + 1 := by
    rw [Rules.height_of_checkOn passed]
    exact toNat_height_succ (Node.tip_ne_greatest timely)
  have latest : node.schedule.latest.1.toNat ≤ block.height.toNat := by
    rw [next]
    exact paced
  have offered := node.offer_accept chain block
  generalize node.accept chain block = result at offered ⊢
  cases offered with
  | refused reason fault =>
    rw [passed] at fault
    exact nomatch fault
  | joined passed steady =>
    refine ⟨rfl, ?_⟩
    change node.schedule.latest.1.toNat ≤ (chain.push block).height.toNat + 1
    rw [Chain.height_push]
    omega
  | retargeted passed change schedule made =>
    refine ⟨rfl, ?_⟩
    change schedule.latest.1.toNat ≤ (chain.push block).height.toNat + 1
    rw [Chain.height_push, Schedule.latest_of_record_eq_ok made]
    exact toNat_height_succ_le block.height
  | stuck passed change error refusal =>
    -- a refusal would need an entry above the block, and there is none
    have small := Node.height_ne_greatest timely passed change
    obtain ⟨low, -⟩ := Schedule.record_eq_error_iff.mp refusal
    rw [UInt64.le_iff_toNat_le, toNat_height_succ small] at low
    omega

theorem offer (paced : Paced ⟨node, chain⟩) (timely : ¬node.AcceptanceOverflows chain block) :
    Paced ⟨(node.accept chain block).2.1, (node.accept chain block).2.2⟩ := by
  cases verdict : node.rules.checkOn node.schedule chain.tip block with
  | error reason =>
    rw [Node.accept_of_checkOn_eq_error verdict]
    exact paced.of_agrees ⟨rfl, rfl, rfl, rfl⟩
  | ok => exact (paced.accept timely verdict).2

private theorem round {session next : Session} (paced : session.Paced) {round : Round}
    (covered : session.node.rules.Covers round.requests) {roundEnd : RoundEnd}
    (played : session.round? round = some (roundEnd, next)) :
    next.Paced ∧ next.node.rules = session.node.rules ∧ roundEnd.Welcome := by
  have outcome := session.played_round? round
  rw [played] at outcome
  cases outcome with
  | failed failure node agrees => exact ⟨paced.of_agrees agrees, agrees.rules, trivial⟩
  | judged block checked node agrees passes timely =>
    obtain ⟨alone, passed⟩ := passes covered
    obtain ⟨joined, stays⟩ := (paced.of_agrees agrees).accept timely passed
    exact ⟨stays, (node.rules_accept _ block).trans agrees.rules, alone, joined⟩

private theorem rounds {session last : Session} (paced : session.Paced) {rounds : List Round}
    (covered : ∀ round ∈ rounds, session.node.rules.Covers round.requests) {ends : List RoundEnd}
    (played : session.rounds? rounds = some (ends, last)) :
    last.node.rules = session.node.rules ∧ ∀ roundEnd ∈ ends, roundEnd.Welcome := by
  induction rounds generalizing session ends with
  | nil =>
    cases played
    exact ⟨rfl, fun _ member => absurd member List.not_mem_nil⟩
  | cons round rest ih =>
    obtain ⟨roundEnd, next, restEnds, one, others, rfl⟩ := exists_of_rounds?_cons played
    obtain ⟨covers, restCovered⟩ := List.forall_mem_cons.mp covered
    obtain ⟨stays, rules, welcome⟩ := paced.round covers one
    rw [← rules] at restCovered
    obtain ⟨restRules, restWelcome⟩ := ih stays restCovered others
    exact ⟨restRules.trans rules, List.forall_mem_cons.mpr ⟨welcome, restWelcome⟩⟩

end Paced

private theorem exists_of_round? (session : Session) (round : Round)
    (room : session.chain.height.toNat + 2 < 2 ^ 64) :
    ∃ roundEnd next, session.round? round = some (roundEnd, next) ∧
      next.chain.height.toNat ≤ session.chain.height.toNat + 1 := by
  have small : session.chain.tip.height ≠ greatestHeight := by
    intro greatest
    rw [Chain.height, greatest, toNat_greatestHeight] at room
    omega
  have outcome := session.played_round? round
  generalize session.round? round = result at outcome ⊢
  cases outcome with
  | unproposed overflow => exact absurd overflow.2 small
  | failed failure node agrees => exact ⟨_, _, rfl, Nat.le_succ _⟩
  | unaccepted block node overflow =>
    have roomy : session.chain.height.toNat + 1 < greatestHeight.toNat := by
      rw [toNat_greatestHeight]
      omega
    exact absurd overflow (Node.not_acceptanceOverflows roomy block)
  | judged block checked node agrees passes timely =>
    exact ⟨_, _, rfl, node.height_accept_le session.chain block⟩

private theorem isSome_rounds? {session : Session} {rounds : List Round}
    (room : session.chain.height.toNat + rounds.length + 1 < 2 ^ 64) :
    (session.rounds? rounds).isSome := by
  induction rounds generalizing session with
  | nil => rfl
  | cons round rest ih =>
    rw [List.length_cons] at room
    obtain ⟨roundEnd, next, one, rise⟩ := exists_of_round? session round (by omega)
    have others : (next.rounds? rest).isSome := ih (by omega)
    unfold rounds?
    rw [one]
    rwa [Option.isSome_map]

/-- A node on a new chain, with a constant schedule of its own and requests that pass: in every run of
rounds, each block that it makes passes its check and joins the chain. Behind the run, too, it never
refuses a block that it produces. Only the heights limit the number of rounds. -/
theorem own_blocks_welcome (rules : Rules) (adjuster : Difficulty.Adjuster) (maxRequests : Nat)
    (initial : UInt32) (rounds : List Round)
    (covered : ∀ round ∈ rounds, rules.Covers round.requests) :
    let session := start (.start rules adjuster maxRequests (.constant initial)) Block.genesis
    (rounds.length + 1 < 2 ^ 64 → (session.rounds? rounds).isSome) ∧
      ∀ ends last, session.rounds? rounds = some (ends, last) →
        (∀ checked accepted, .judged checked accepted ∈ ends →
          checked = .ok () ∧ accepted = .ok ()) ∧
        ∀ now later requests reason, rules.Covers requests →
          (last.node.produce now later last.chain.tip requests).1 ≠ .error (.rejected reason) := by
  intro session
  have paced : session.Paced := paced_start rfl Block.genesis
  refine ⟨?_, ?_⟩
  · intro room
    have lowest : session.chain.height.toNat = 0 := rfl
    exact isSome_rounds? (by omega)
  · intro ends last played
    obtain ⟨same, welcome⟩ := paced.rounds covered played
    refine ⟨?_, ?_⟩
    · intro checked accepted member
      exact welcome _ member
    · intro now later requests reason covers
      exact Node.produce_ne_rejected (same ▸ covers) reason

/-- Three rounds, the last at the difficulty that the two before have raised. -/
theorem own_blocks_welcome_across_change :
    ∃ rounds ends last,
      (start (.rehearsal (.constant 1)) Block.genesis).rounds? rounds = some (ends, last) ∧
        last.chain.accepted.map (·.difficulty) = [1, 1, 2] ∧
        (∀ checked accepted, .judged checked accepted ∈ ends →
          checked = .ok () ∧ accepted = .ok ()) ∧
        ∀ now later requests reason,
          (last.node.produce now later last.chain.tip requests).1 ≠ .error (.rejected reason) := by
  let rounds : List Round := [⟨0, 0, []⟩, ⟨1, 2, []⟩, ⟨2, 3, []⟩]
  let rules : Rules := (Node.rehearsal (.constant 1)).rules
  have covers : ∀ requests, rules.Covers requests := fun _ _ known => nomatch known
  have result := own_blocks_welcome rules (.of 2 600 4) 3 1 rounds fun round _ =>
    covers round.requests
  have played : ((start (.rehearsal (.constant 1)) Block.genesis).rounds? rounds).map
      (fun result => result.2.chain.accepted.map (·.difficulty)) = some [1, 1, 2] := by
    decide +kernel
  obtain ⟨⟨ends, last⟩, ran, difficulties⟩ := Option.map_eq_some_iff.mp played
  obtain ⟨welcome, unrefused⟩ := result.2 ends last ran
  exact ⟨rounds, ends, last, ran, difficulties, welcome, fun now later requests reason =>
    unrefused now later requests reason (covers requests)⟩

end Session

end DelayChain
