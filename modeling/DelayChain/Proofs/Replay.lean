import DelayChain.Proofs.Production

/-!
# Replaying a chain

Offering a block reads what a node holds to and its schedule, and nothing of where the node stands in
its cycle. So the blocks of a chain, offered in order to a new node of the same settings, are accepted
one after another and lead to the same chain and the same schedule, whatever else the first node was
asked to do and whatever it refused.
-/

set_option autoImplicit false
set_option relaxedAutoImplicit false

namespace DelayChain

namespace Node

variable {node node' : Node} {chain : Chain} {block : Block}

/-- Offering a block reads neither the number of requests that a proposal may hold nor where a node
stands in its cycle, and moves nothing of them but the phase. -/
theorem accept_frame (node : Node) (maxRequests : Nat) (phase : Phase) (timed : Timed)
    (proposed : Option String) (chain : Chain) (block : Block) :
    { node with maxRequests, phase, timed, proposed }.accept chain block =
      ((node.accept chain block).1,
        { (node.accept chain block).2.1 with maxRequests, timed, proposed },
        (node.accept chain block).2.2) := by
  let moved : Node := { node with maxRequests, phase, timed, proposed }
  change moved.accept chain block = _
  have offered := node.offer_accept chain block
  generalize node.accept chain block = result at offered ⊢
  -- what decides the outcome is the same for both nodes, so the outcomes correspond one by one
  cases offered with
  | refused reason fault => exact (@Offer.refused moved chain block reason fault).accept_eq
  | joined passed steady => exact (@Offer.joined moved chain block passed steady).accept_eq
  | retargeted passed change schedule made =>
    exact (@Offer.retargeted moved chain block passed change schedule made).accept_eq
  | stuck passed change error refusal =>
    exact (@Offer.stuck moved chain block passed change error refusal).accept_eq

theorem maxRequests_accept (node : Node) (chain : Chain) (block : Block) :
    (node.accept chain block).2.1.maxRequests = node.maxRequests := by
  have framed := node.accept_frame node.maxRequests node.phase node.timed node.proposed chain block
  rw [framed]

theorem Agrees.exists_eq (agrees : node.Agrees node') :
    ∃ phase timed proposed, node' = { node with phase, timed, proposed } := by
  obtain ⟨rules, adjuster, maxRequests, schedule⟩ := agrees
  refine ⟨node'.phase, node'.timed, node'.proposed, ?_⟩
  rw [← rules, ← adjuster, ← maxRequests, ← schedule]

/-- Nodes that agree give one verdict on a block, come to one chain, and agree behind it. -/
theorem Agrees.accept (agrees : node.Agrees node') (chain : Chain) (block : Block) :
    (node'.accept chain block).1 = (node.accept chain block).1 ∧
      (node'.accept chain block).2.2 = (node.accept chain block).2.2 ∧
      (node.accept chain block).2.1.Agrees (node'.accept chain block).2.1 := by
  obtain ⟨phase, timed, proposed, rfl⟩ := agrees.exists_eq
  rw [accept_frame]
  exact ⟨rfl, rfl, rfl, rfl, (node.maxRequests_accept chain block).symm, rfl⟩

theorem Agrees.acceptanceOverflows_iff (agrees : node.Agrees node') :
    node'.AcceptanceOverflows chain block ↔ node.AcceptanceOverflows chain block := by
  obtain ⟨phase, timed, proposed, rfl⟩ := agrees.exists_eq
  exact Iff.rfl

end Node

namespace Session

/-- The verdicts on some blocks that are offered one after another, and the session behind them. -/
def offers? (session : Session) : List Block → Option (List (Except Failure Unit) × Session)
  | [] => some ([], session)
  | block :: rest =>
    if session.node.AcceptanceOverflows session.chain block then none
    else
      let (verdict, node, chain) := session.node.accept session.chain block
      (offers? ⟨node, chain⟩ rest).map fun (verdicts, last) => (verdict :: verdicts, last)

theorem offers?_cons_of_overflow {session : Session} {block : Block}
    (overflow : session.node.AcceptanceOverflows session.chain block) (rest : List Block) :
    session.offers? (block :: rest) = none := by
  rw [offers?, if_pos overflow]

theorem offers?_cons_of_timely {session : Session} {block : Block}
    (timely : ¬session.node.AcceptanceOverflows session.chain block) (rest : List Block) :
    session.offers? (block :: rest) =
      (offers? ⟨(session.node.accept session.chain block).2.1,
        (session.node.accept session.chain block).2.2⟩ rest).map fun (verdicts, last) =>
          ((session.node.accept session.chain block).1 :: verdicts, last) := by
  rw [offers?, if_neg timely]

private theorem offers?_concat {session last : Session} {blocks : List Block} {block : Block}
    {verdicts : List (Except Failure Unit)} (offered : session.offers? blocks = some (verdicts, last))
    (timely : ¬last.node.AcceptanceOverflows last.chain block) :
    session.offers? (blocks ++ [block]) =
      some (verdicts ++ [(last.node.accept last.chain block).1],
        ⟨(last.node.accept last.chain block).2.1, (last.node.accept last.chain block).2.2⟩) := by
  induction blocks generalizing session verdicts with
  | nil =>
    cases offered
    rw [List.nil_append, offers?_cons_of_timely timely]
    rfl
  | cons first rest ih =>
    by_cases early : session.node.AcceptanceOverflows session.chain first
    · rw [offers?_cons_of_overflow early] at offered
      exact nomatch offered
    · rw [offers?_cons_of_timely early] at offered
      obtain ⟨⟨others, final⟩, behind, together⟩ := Option.map_eq_some_iff.mp offered
      cases together
      rw [List.cons_append, offers?_cons_of_timely early, ih behind]
      rfl

/-- The accepted blocks of a session, offered to the session at the start, all join and lead to the
same chain and to a node that agrees. -/
def Replayable (first session : Session) : Prop :=
  ∃ replayed, first.offers? session.chain.accepted =
      some (session.chain.accepted.map fun _ => .ok (), replayed) ∧
    replayed.chain = session.chain ∧ session.node.Agrees replayed.node

namespace Replayable

variable {first : Session} {node node' : Node} {chain : Chain} {block : Block}

private theorem of_agrees (replayable : first.Replayable ⟨node, chain⟩) (agrees : node.Agrees node') :
    first.Replayable ⟨node', chain⟩ := by
  obtain ⟨replayed, offered, same, behind⟩ := replayable
  exact ⟨replayed, offered, same, agrees.symm.trans behind⟩

private theorem accept (replayable : first.Replayable ⟨node, chain⟩) (paced : Paced ⟨node, chain⟩)
    (timely : ¬node.AcceptanceOverflows chain block) :
    first.Replayable ⟨(node.accept chain block).2.1, (node.accept chain block).2.2⟩ := by
  cases verdict : node.rules.checkOn node.schedule chain.tip block with
  | error reason =>
    rw [Node.accept_of_checkOn_eq_error verdict]
    exact replayable.of_agrees ⟨rfl, rfl, rfl, rfl⟩
  | ok =>
    obtain ⟨replayed, offered, same, behind⟩ := replayable
    obtain ⟨joins, -⟩ := paced.accept timely verdict
    obtain ⟨verdicts, chains, agrees⟩ := behind.accept chain block
    have grown := Node.chain_accept_of_checkOn verdict
    have timely' : ¬replayed.node.AcceptanceOverflows replayed.chain block := by
      rw [same, behind.acceptanceOverflows_iff]
      exact timely
    have rerun := offers?_concat offered timely'
    rw [same, verdicts, joins] at rerun
    refine ⟨⟨_, (replayed.node.accept chain block).2.2⟩, ?_, chains, agrees⟩
    simp only [grown, Chain.push, List.map_append, List.map_singleton]
    exact rerun

private theorem run {session last : Session} (replayable : first.Replayable session)
    (paced : session.Paced) {operations : List Operation}
    (ran : session.run? operations = some last) : first.Replayable last := by
  let Holds : Session → Prop := fun session => session.Paced ∧ first.Replayable session
  have moves : ∀ {node node' chain}, Holds ⟨node, chain⟩ → node.Agrees node' →
      Holds ⟨node', chain⟩ := fun holds agrees =>
    ⟨holds.1.of_agrees agrees, holds.2.of_agrees agrees⟩
  have offers : ∀ {node chain block}, Holds ⟨node, chain⟩ →
      ¬node.AcceptanceOverflows chain block →
      Holds ⟨(node.accept chain block).2.1, (node.accept chain block).2.2⟩ := fun holds timely =>
    ⟨holds.1.offer timely, holds.2.accept holds.1 timely⟩
  have both : Holds last := holds_of_run? moves offers ⟨paced, replayable⟩ ran
  exact both.2

end Replayable

private theorem replayable_start (node : Node) (genesis : Block) :
    (start node genesis).Replayable (start node genesis) :=
  ⟨start node genesis, rfl, rfl, .refl node⟩

/-- A node with a constant schedule of its own may propose, finalize, produce, check, audit and be
offered blocks, in any order. A new node of the same settings accepts the blocks of its chain one
after another and comes to the same chain and schedule. So the schedule is decided by the chain alone:
two runs that end in one chain end in one schedule. -/
theorem replay_of_run (rules : Rules) (adjuster : Difficulty.Adjuster) (maxRequests : Nat)
    (initial : UInt32) (genesis : Block) {operations : List Operation} {session : Session}
    (ran : (start (.start rules adjuster maxRequests (.constant initial)) genesis).run? operations =
      some session) :
    let fresh := start (.start rules adjuster maxRequests (.constant initial)) genesis
    (∃ replayed, fresh.offers? session.chain.accepted =
        some (session.chain.accepted.map fun _ => .ok (), replayed) ∧
      replayed.chain = session.chain ∧ replayed.node.schedule = session.node.schedule) ∧
    ∀ operations' session', fresh.run? operations' = some session' →
      session'.chain = session.chain → session'.node.schedule = session.node.schedule := by
  intro fresh
  have paced : fresh.Paced := paced_start rfl genesis
  have replayable : fresh.Replayable fresh := replayable_start _ genesis
  obtain ⟨replayed, offered, chain, agrees⟩ := replayable.run paced ran
  refine ⟨⟨replayed, offered, chain, agrees.schedule⟩, ?_⟩
  intro operations' session' ran' same
  obtain ⟨replayed', offered', -, agrees'⟩ := replayable.run paced ran'
  rw [same, offered] at offered'
  cases offered'
  exact agrees'.schedule.symm.trans agrees.schedule

/-- A run with proposals, a block that comes too early and another that comes twice, replayed across
the change of difficulty that its two blocks bring. -/
theorem replay_across_change :
    ∃ operations session replayed,
      (start (.rehearsal (.constant 1)) Block.genesis).run? operations = some session ∧
        session.chain.accepted.length = 2 ∧ session.node.schedule = ⟨1, [(3, 2)]⟩ ∧
        (start (.rehearsal (.constant 1)) Block.genesis).offers? session.chain.accepted =
          some (session.chain.accepted.map fun _ => .ok (), replayed) ∧
        replayed.chain = session.chain ∧ replayed.node.schedule = session.node.schedule := by
  let node : Node := .rehearsal (.constant 1)
  let first : Block := (node.produced? Block.genesis).getD Block.genesis
  let second : Block := (node.produced? first).getD Block.genesis
  let operations : List Operation :=
    [.accept second, .propose 0 Block.genesis [], .accept first, .accept first,
      .produce 0 0 first [], .accept second, .audit]
  have ran : ((start node Block.genesis).run? operations).map
      (fun session => (session.chain.accepted.length, session.node.schedule)) =
        some (2, ⟨1, [(3, 2)]⟩) := by decide +kernel
  obtain ⟨session, reached, state⟩ := Option.map_eq_some_iff.mp ran
  obtain ⟨length, schedule⟩ := Prod.mk.inj state
  obtain ⟨⟨replayed, offered, chain, same⟩, -⟩ :=
    replay_of_run node.rules node.adjuster node.maxRequests 1 Block.genesis reached
  exact ⟨operations, session, replayed, reached, length, schedule, offered, chain, same⟩

end Session

end DelayChain
