import DelayChain.Node.Calls
import DelayChain.Proofs.Proposal
import DelayChain.Proofs.Settled

/-!
# The phases of a node

A proposal that succeeds opens the one phase in which a block is finalized, and keeps the work hash of
its block. Every other call that is carried out closes it: only a finalization that is refused, a
retarget and an audit leave phase and work hash as they are. So what is finalized has the work hash of
the last proposal, and no proposal is finalized twice.
-/

set_option autoImplicit false
set_option relaxedAutoImplicit false

namespace DelayChain

/-- A phase in which nothing is under way and nothing waits to be finalized. -/
inductive Phase.Closed : Phase → Prop
  | idle : Closed .idle
  | finalized : Closed .finalized
  | accepted : Closed .accepted
  | rejected : Closed .rejected

private theorem Phase.Closed.mem {phase : Phase} (closed : phase.Closed) :
    phase ∈ [.idle, .powDone, .finalized, .accepted, .rejected] := by
  cases closed <;> decide

namespace Node

variable {node node' : Node} {now later : Int64} {parent block : Block} {requests : List Request}
  {mined : MinedBlock} {chain : Chain}

/-- What a call makes of the phase, and of the work hash that waits to be finalized. -/
inductive Turn (node : Node) : Answer × Node → Prop
  /-- A block is mined and waits. -/
  | mined (answer : Answer) (node' : Node) (mined : MinedBlock)
      (proposal : answer.proposal? = some mined)
      (computed : mined.workHash = mined.block.computeWorkHash node.rules.hasher)
      (phase : node'.phase = .powDone) (waits : node'.proposed = some mined.workHash) :
      Turn node (answer, node')
  /-- Nothing waits any more. -/
  | closed (answer : Answer) (node' : Node) (unmined : answer.proposal? = none)
      (phase : node'.phase.Closed) : Turn node (answer, node')
  /-- What waits goes on waiting. -/
  | kept (answer : Answer) (node' : Node) (unmined : answer.proposal? = none)
      (quiet : ¬answer.Proposes ∧ ¬answer.Finalizes) (phase : node'.phase = node.phase)
      (waits : node'.proposed = node.proposed) : Turn node (answer, node')

private theorem computeWorkHash_of_mineChild
    (found : node.mineChild now parent requests = .ok mined) :
    mined.workHash = mined.block.computeWorkHash node.rules.hasher :=
  (Block.isChildOf_of_propose found).workHash

private theorem turn_propose (node : Node) (now : Int64) (parent : Block) (requests : List Request) :
    node.Turn (node.answer (.propose now parent requests)) := by
  unfold answer propose
  dsimp only
  cases searched : node.beginCycle.mineChild now parent requests with
  | error error => exact .closed _ _ rfl .idle
  | ok mined => exact .mined _ _ mined rfl (computeWorkHash_of_mineChild searched) rfl rfl

private theorem eq_ok_of_race {rules : Rules} {schedule : Schedule} {events : List RaceEvent}
    {search : Unit → Except Failure MinedBlock}
    (raced : race rules schedule parent events search = .ok (.mined mined)) :
    search () = .ok mined := by
  unfold race at raced
  split at raced
  · exact nomatch raced
  · cases found : search () with
    | error failure =>
      rw [found] at raced
      exact nomatch raced
    | ok block =>
      rw [found] at raced
      cases raced
      rfl

private theorem turn_race (node : Node) (now : Int64) (parent : Block) (requests : List Request)
    (events : List RaceEvent) : node.Turn (node.answer (.race now parent requests events)) := by
  unfold answer proposeRacing
  dsimp only
  cases raced : race node.beginCycle.rules node.beginCycle.schedule parent events
      (fun _ => (node.beginCycle.mineChild now parent requests).mapError .proposal) with
  | error failure => exact .closed _ _ rfl .idle
  | ok outcome =>
    cases outcome with
    | received block => exact .closed _ _ rfl .accepted
    | mined mined =>
      have found := eq_ok_of_race raced
      cases searched : node.beginCycle.mineChild now parent requests with
      | error error =>
        rw [searched] at found
        exact nomatch found
      | ok child =>
        rw [searched] at found
        cases found
        exact .mined _ _ mined rfl (computeWorkHash_of_mineChild searched) rfl rfl

private theorem turn_finalize (node : Node) (now : Int64) (mined : MinedBlock) :
    node.Turn (node.answer (.finalize now mined)) := by
  have finalization := node.finalization_finalize now mined
  change node.Turn (.finalized (node.finalize now mined).1, (node.finalize now mined).2)
  generalize node.finalize now mined = result at finalization ⊢
  cases finalization with
  | early closed => exact .kept _ _ rfl ⟨id, id⟩ rfl rfl
  | foreign ready other => exact .kept _ _ rfl ⟨id, id⟩ rfl rfl
  | done ready own block attached => exact .closed _ _ rfl .finalized
  | unproven ready own error failed => exact .closed _ _ rfl .idle

theorem closed_check (node : Node) (block : Block) : (node.check block).2.phase.Closed := by
  unfold check
  split
  · exact .accepted
  · exact .rejected

private theorem closed_produce (node : Node) (now later : Int64) (parent : Block)
    (requests : List Request) : (node.produce now later parent requests).2.phase.Closed := by
  unfold produce make propose
  dsimp only
  cases node.beginCycle.mineChild now parent requests with
  | error error => exact .idle
  | ok mined =>
    have finalization := (node.beginCycle.noteMined mined).finalization_finalize later mined
    dsimp only
    generalize (node.beginCycle.noteMined mined).finalize later mined = result at finalization ⊢
    -- the finalization is of the block just mined, so it is not refused
    cases finalization with
    | early closed => exact absurd rfl closed
    | foreign ready other => exact absurd rfl other
    | unproven ready own error failed => exact .idle
    | done ready own block attached =>
      have checking := closed_check
        { node.beginCycle.noteMined mined with
          proposed := none
          timed := { (node.beginCycle.noteMined mined).timed with delay := true }
          phase := .finalized } block
      dsimp only
      generalize Node.check _ block = checked at checking ⊢
      obtain ⟨verdict, judge⟩ := checked
      cases verdict with
      | error reason => exact checking
      | ok => exact checking

theorem closed_accept (node : Node) (chain : Chain) (block : Block) :
    (node.accept chain block).2.1.phase.Closed := by
  have offered := node.offer_accept chain block
  generalize node.accept chain block = result at offered ⊢
  cases offered with
  | refused => exact .rejected
  | joined => exact .accepted
  | retargeted => exact .accepted
  | stuck => exact .accepted

theorem turn_answer (node : Node) (call : Call) : node.Turn (node.answer call) := by
  cases call with
  | propose now parent requests => exact node.turn_propose now parent requests
  | race now parent requests events => exact node.turn_race now parent requests events
  | brokenRace => exact .closed _ _ rfl .idle
  | finalize now mined => exact node.turn_finalize now mined
  | check block => exact .closed _ _ rfl (node.closed_check block)
  | validate block => exact .closed _ _ rfl (node.closed_check block)
  | produce now later parent requests =>
    exact .closed _ _ rfl (node.closed_produce now later parent requests)
  | accept chain block => exact .closed _ _ rfl (node.closed_accept chain block)
  | retarget chain =>
    have phase : (node.retarget chain).2.phase = node.phase := by rw [node.snd_retarget chain]
    have waits : (node.retarget chain).2.proposed = node.proposed := by
      rw [node.snd_retarget chain]
    exact .kept _ _ rfl ⟨id, id⟩ phase waits
  | audit chain => exact .kept _ _ rfl ⟨id, id⟩ rfl rfl

private theorem computeWorkHash_of_answer {call : Call}
    (proposal : (node.answer call).1.proposal? = some mined) :
    mined.workHash = mined.block.computeWorkHash node.rules.hasher := by
  have turned := node.turn_answer call
  generalize node.answer call = result at turned proposal
  cases turned with
  | mined answer node' found foundIn computed =>
    obtain rfl := Option.some.inj (foundIn.symm.trans proposal)
    exact computed
  | closed answer node' unmined => exact nomatch unmined.symm.trans proposal
  | kept answer node' unmined => exact nomatch unmined.symm.trans proposal

private theorem rules_answer (node : Node) (call : Call) : (node.answer call).2.rules = node.rules := by
  cases call with
  | propose now parent requests => exact (node.agrees_propose now parent requests).rules
  | race now parent requests events =>
    unfold answer proposeRacing
    dsimp only
    split <;> rfl
  | brokenRace => rfl
  | finalize now mined => exact (node.agrees_finalize now mined).rules
  | check block => exact (node.agrees_check block).rules
  | validate block => exact (node.agrees_check block).rules
  | produce now later parent requests => exact (node.agrees_produce now later parent requests).rules
  | accept chain block => exact node.rules_accept chain block
  | retarget chain =>
    change (node.retarget chain).2.rules = node.rules
    rw [node.snd_retarget chain]
  | audit chain => rfl

end Node

namespace Answer

variable {answers : List Answer} {answer : Answer} {mined : MinedBlock}

/-- By what a node has answered, a block waits to be finalized: the last call to begin a cycle mined it,
and none has given a finalized block since. -/
def Awaited (answers : List Answer) (mined : MinedBlock) : Prop :=
  ∃ earlier answer later, answers = earlier ++ answer :: later ∧ answer.proposal? = some mined ∧
    ∀ other ∈ later, ¬other.Proposes ∧ ¬other.Finalizes

private theorem awaited_concat_of_proposal (proposal : answer.proposal? = some mined) :
    Awaited (answers ++ [answer]) mined :=
  ⟨answers, answer, [], rfl, proposal, fun _ member => absurd member List.not_mem_nil⟩

private theorem Awaited.concat (awaited : Awaited answers mined)
    (quiet : ¬answer.Proposes ∧ ¬answer.Finalizes) : Awaited (answers ++ [answer]) mined := by
  obtain ⟨earlier, proposal, later, rfl, found, silent⟩ := awaited
  refine ⟨earlier, proposal, later ++ [answer], by simp, found, ?_⟩
  intro other member
  rcases List.mem_append.mp member with before | last
  · exact silent other before
  · rw [List.mem_singleton.mp last]
    exact quiet

end Answer

namespace Node

variable {node : Node} {answers : List Answer} {rules : Rules}

/-- What holds of a node behind its answers: nothing is under way; where a block waits, its work hash
is kept; and every block that was mined has the work hash of its contents. -/
structure Tracked (rules : Rules) (answers : List Answer) (node : Node) : Prop where
  holdsTo : node.rules = rules
  phase : node.phase.Closed ∨ node.phase = .powDone
  waits : node.phase = .powDone →
    ∃ mined, Answer.Awaited answers mined ∧ node.proposed = some mined.workHash
  computed : ∀ answer ∈ answers, ∀ mined, answer.proposal? = some mined →
    mined.workHash = mined.block.computeWorkHash rules.hasher

theorem tracked_start (rules : Rules) (adjuster : Difficulty.Adjuster) (maxRequests : Nat)
    (schedule : Schedule) : Tracked rules [] (start rules adjuster maxRequests schedule) where
  holdsTo := rfl
  phase := .inl .idle
  waits ready := nomatch ready
  computed _ member := absurd member List.not_mem_nil

namespace Tracked

private theorem answer (tracked : Tracked rules answers node) (call : Call) :
    Tracked rules (answers ++ [(node.answer call).1]) (node.answer call).2 := by
  have holdsTo := (node.rules_answer call).trans tracked.holdsTo
  have computed : ∀ answer ∈ answers ++ [(node.answer call).1], ∀ mined,
      answer.proposal? = some mined →
        mined.workHash = mined.block.computeWorkHash rules.hasher := by
    intro answer member mined proposal
    rcases List.mem_append.mp member with before | last
    · exact tracked.computed answer before mined proposal
    · rw [List.mem_singleton.mp last] at proposal
      rw [computeWorkHash_of_answer proposal, tracked.holdsTo]
  have turned := node.turn_answer call
  generalize node.answer call = result at holdsTo computed turned ⊢
  cases turned with
  | mined answer node' mined proposal _ phase waits =>
    exact ⟨holdsTo, .inr phase,
      fun _ => ⟨mined, Answer.awaited_concat_of_proposal proposal, waits⟩, computed⟩
  | closed answer node' unmined phase =>
    refine ⟨holdsTo, .inl phase, ?_, computed⟩
    intro ready
    rw [ready] at phase
    exact nomatch phase
  | kept answer node' unmined quiet phase waits =>
    refine ⟨holdsTo, ?_, ?_, computed⟩
    · rw [phase]
      exact tracked.phase
    · intro ready
      rw [phase] at ready
      obtain ⟨mined, awaited, held⟩ := tracked.waits ready
      exact ⟨mined, awaited.concat quiet, waits.trans held⟩

theorem run (tracked : Tracked rules answers node) (calls : List Call) :
    Tracked rules (answers ++ (node.answers calls).1) (node.answers calls).2 := by
  induction calls generalizing answers node with
  | nil =>
    rw [Node.answers, List.append_nil]
    exact tracked
  | cons call rest ih =>
    have behind := ih (tracked.answer call)
    rw [List.append_assoc] at behind
    exact behind

theorem awaited_of_finalize (tracked : Tracked rules answers node) {now : Int64}
    {mined : MinedBlock} {block : Block} (finalized : (node.finalize now mined).1 = .ok block) :
    node.phase = .powDone ∧ node.proposed = some mined.workHash ∧
      ∃ proposal, Answer.Awaited answers proposal ∧ mined.workHash = proposal.workHash := by
  have finalization := node.finalization_finalize now mined
  generalize node.finalize now mined = result at finalization finalized
  cases finalization with
  | early closed => exact nomatch finalized
  | foreign ready other => exact nomatch finalized
  | unproven ready own error failed => exact nomatch finalized
  | done ready own attached =>
    obtain ⟨proposal, awaited, waits⟩ := tracked.waits ready
    exact ⟨ready, own, proposal, awaited, Option.some.inj (own.symm.trans waits)⟩

end Tracked

private theorem exists_call_of_answers {calls : List Call} {before after : List Answer}
    {answer : Answer} (given : (node.answers calls).1 = before ++ answer :: after) :
    ∃ earlier call, (node.answers earlier).1 = before ∧
      ((node.answers earlier).2.answer call).1 = answer := by
  induction before generalizing node calls with
  | nil =>
    cases calls with
    | nil => exact nomatch given
    | cons call rest => exact ⟨[], call, rfl, (List.cons.inj given).1⟩
  | cons first between ih =>
    cases calls with
    | nil => exact nomatch given
    | cons call rest =>
      obtain ⟨same, behind⟩ := List.cons.inj given
      obtain ⟨earlier, next, answers, answered⟩ := ih behind
      exact ⟨call :: earlier, next, congrArg₂ List.cons same answers, answered⟩

private theorem exists_finalize_of_answer {call : Call} {result : Except Failure Block}
    (answered : (node.answer call).1 = .finalized result) :
    ∃ now mined, (node.finalize now mined).1 = result := by
  cases call with
  | finalize now mined => exact ⟨now, mined, Answer.finalized.inj answered⟩
  | propose | race | brokenRace | check | validate | produce | accept | retarget | audit =>
    exact nomatch answered

end Node

theorem eq_or_mem_of_append_cons_eq {α : Type} {front front' back back' : List α} {x x' : α}
    (split : front ++ x :: back = front' ++ x' :: back') : x = x' ∨ x' ∈ back ∨ x ∈ back' := by
  rcases List.append_eq_append_iff.mp split with ⟨gap, -, behind⟩ | ⟨gap, -, behind⟩
  · cases gap with
    | nil => exact .inl (List.cons.inj behind).1
    | cons first rest =>
      obtain ⟨-, rfl⟩ := List.cons.inj behind
      exact .inr (.inl (List.mem_append_right _ List.mem_cons_self))
  · cases gap with
    | nil => exact .inl (List.cons.inj behind).1.symm
    | cons first rest =>
      obtain ⟨-, rfl⟩ := List.cons.inj behind
      exact .inr (.inr (List.mem_append_right _ List.mem_cons_self))

private theorem Answer.Awaited.exists_between {before between : List Answer} {mined : MinedBlock}
    {block : Block} (awaited : Awaited (before ++ .finalized (.ok block) :: between) mined) :
    ∃ answer ∈ between, answer.proposal? = some mined := by
  obtain ⟨earlier, proposal, later, split, found, silent⟩ := awaited
  rcases eq_or_mem_of_append_cons_eq split with rfl | behind | before
  · exact nomatch found
  · exact ⟨proposal, behind, found⟩
  · -- a finalization behind the proposal is not silent
    exact absurd trivial (silent _ before).2

namespace Node

/-- Behind any calls to a new node: nothing is under way. In the phase behind a proposal the work hash
that is kept is that of the last proposal or race, and no finalization has succeeded since. A
finalization succeeds in that phase only, and of a block with that work hash, so between two that
succeed there is a proposal. One that is refused for its phase or its block changes nothing. -/
theorem phases_of_answers (rules : Rules) (adjuster : Difficulty.Adjuster) (maxRequests : Nat)
    (schedule : Schedule) (calls : List Call) :
    let run := (start rules adjuster maxRequests schedule).answers calls
    run.2.phase ∈ [.idle, .powDone, .finalized, .accepted, .rejected] ∧
    (run.2.phase = .powDone →
      ∃ proposal, Answer.Awaited run.1 proposal ∧ run.2.proposed = some proposal.workHash) ∧
    (∀ now mined block, (run.2.finalize now mined).1 = .ok block →
      run.2.phase = .powDone ∧ run.2.proposed = some mined.workHash ∧
        ∃ proposal, Answer.Awaited run.1 proposal ∧ mined.workHash = proposal.workHash) ∧
    (∀ before between after block block',
      run.1 = before ++ .finalized (.ok block) :: between ++ .finalized (.ok block') :: after →
        ∃ answer ∈ between, answer.proposal?.isSome) ∧
    (∀ now mined failure, (run.2.finalize now mined).1 = .error failure →
      ((∃ expected actual, failure = .wrongPhase expected actual) ∨
        ∃ workHash, failure = .notProposed workHash) →
        (run.2.finalize now mined).2 = run.2) := by
  intro run
  have first := tracked_start rules adjuster maxRequests schedule
  have tracked : Tracked rules run.1 run.2 := first.run calls
  refine ⟨?_, tracked.waits, fun now mined block finalized => ?_, ?_, ?_⟩
  · rcases tracked.phase with closed | ready
    · exact closed.mem
    · rw [ready]
      decide
  · exact tracked.awaited_of_finalize finalized
  · intro before between after block block' split
    obtain ⟨earlier, call, answers, answered⟩ := exists_call_of_answers split
    obtain ⟨now, mined, finalized⟩ := exists_finalize_of_answer answered
    have behind := first.run earlier
    rw [answers] at behind
    obtain ⟨-, -, proposal, awaited, -⟩ := behind.awaited_of_finalize finalized
    obtain ⟨answer, member, found⟩ := awaited.exists_between
    exact ⟨answer, member, by rw [found]; rfl⟩
  · intro now mined failure failed refused
    have finalization := run.2.finalization_finalize now mined
    generalize run.2.finalize now mined = result at finalization failed ⊢
    cases finalization with
    | early closed => rfl
    | foreign ready other => rfl
    | done ready own block attached => exact nomatch failed
    | unproven ready own error unproved =>
      cases failed
      rcases refused with ⟨_, _, absurdity⟩ | ⟨_, absurdity⟩ <;> exact nomatch absurdity

/-- A proposal still waits behind a finalization of another block and an audit, and is finalized. -/
theorem phases_behind_refusal :
    ∃ calls other mined block,
      calls = [.propose 0 Block.genesis [], .finalize 0 other,
        .audit (Chain.ofGenesis Block.genesis)] ∧
      let run := (rehearsal (.constant 1)).answers calls
      (run.2.finalize 0 mined).1 = .ok block ∧ run.2.phase = .powDone ∧
        ∃ proposal, Answer.Awaited run.1 proposal ∧ mined.workHash = proposal.workHash := by
  let node : Node := rehearsal (.constant 1)
  let sealedGenesis (workHash : String) : MinedBlock :=
    ⟨Block.genesis.sealWith workHash, workHash, rfl⟩
  let other : MinedBlock := sealedGenesis "0"
  let mined : MinedBlock := (node.propose 0 Block.genesis []).1.toOption.getD other
  let calls : List Call :=
    [.propose 0 Block.genesis [], .finalize 0 other, .audit (Chain.ofGenesis Block.genesis)]
  have finalizes : ((node.answers calls).2.finalize 0 mined).1.isOk = true := by decide +kernel
  cases finalized : ((node.answers calls).2.finalize 0 mined).1 with
  | error failure =>
    rw [finalized] at finalizes
    exact absurd finalizes Bool.false_ne_true
  | ok block =>
    obtain ⟨-, -, finalizations, -⟩ :=
      phases_of_answers node.rules node.adjuster node.maxRequests (.constant 1) calls
    obtain ⟨ready, -, awaited⟩ := finalizations 0 mined block finalized
    exact ⟨calls, other, mined, block, rfl, finalized, ready, awaited⟩

end Node

end DelayChain
