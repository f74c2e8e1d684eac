import DelayChain.Proofs.Replay
import DelayChain.Proofs.Settled

/-!
# The number of requests in a block

A node holds its own proposals to a number of requests, and nothing else. The verdict on a block does
not depend on that number, so blocks of other nodes join the chain with as many requests as their makers
were willing to take.
-/

set_option autoImplicit false
set_option relaxedAutoImplicit false

namespace DelayChain

namespace Node

variable {node node' : Node} {now later : Int64} {parent block : Block} {requests : List Request}
  {chain : Chain}

/-- The same node with another number of requests for its proposals. -/
def withCap (node : Node) (cap : Nat) : Node := { node with maxRequests := cap }

private theorem length_le_of_mineChild {mined : MinedBlock}
    (found : node.mineChild now parent requests = .ok mined) :
    requests.length ≤ node.maxRequests := by
  unfold mineChild Block.propose at found
  split at found
  · exact nomatch found
  · next within => exact Nat.not_lt.mp within

private theorem length_le_of_propose {mined : MinedBlock}
    (proposed : node.propose now parent requests = (.ok mined, node')) :
    requests.length ≤ node.maxRequests := by
  unfold propose at proposed
  dsimp only at proposed
  cases searched : node.beginCycle.mineChild now parent requests with
  | error error =>
    rw [searched] at proposed
    exact nomatch proposed
  | ok found =>
    have within : requests.length ≤ node.beginCycle.maxRequests := length_le_of_mineChild searched
    exact within

private theorem requests_of_make
    (made : node.make now later parent requests = (.ok block, node')) :
    block.requests = requests ∧ requests.length ≤ node.maxRequests := by
  unfold make at made
  cases proposed : node.propose now parent requests with
  | mk result proposer =>
    rw [proposed] at made
    cases result with
    | error failure => exact nomatch made
    | ok mined =>
      obtain ⟨proof, -, rfl⟩ := MinedBlock.finalize_eq_ok_iff.mp (finalize_of_eq_ok made)
      exact ⟨(isChildOf_of_propose proposed).requests, length_le_of_propose proposed⟩

private theorem accept_withCap (node : Node) (cap : Nat) (chain : Chain) (block : Block) :
    (node.withCap cap).accept chain block =
      ((node.accept chain block).1, (node.accept chain block).2.1.withCap cap,
        (node.accept chain block).2.2) := by
  have framed := node.accept_frame cap node.phase node.timed node.proposed chain block
  have alone := node.accept_frame node.maxRequests node.phase node.timed node.proposed chain block
  have timed : (node.accept chain block).2.1.timed = node.timed := by rw [alone]
  have proposed : (node.accept chain block).2.1.proposed = node.proposed := by rw [alone]
  refine framed.trans ?_
  simp only [withCap, timed, proposed]

end Node

namespace Session

/-- The same session of a node with another number of requests for its proposals. -/
def withCap (session : Session) (cap : Nat) : Session := ⟨session.node.withCap cap, session.chain⟩

private theorem offers?_withCap (session : Session) (cap : Nat) (blocks : List Block) :
    (session.withCap cap).offers? blocks =
      (session.offers? blocks).map fun (verdicts, last) => (verdicts, last.withCap cap) := by
  induction blocks generalizing session with
  | nil => rfl
  | cons block rest ih =>
    by_cases overflow : session.node.AcceptanceOverflows session.chain block
    · rw [offers?_cons_of_overflow overflow]
      have overflow' : (session.withCap cap).node.AcceptanceOverflows session.chain block := overflow
      exact offers?_cons_of_overflow overflow' rest
    · have timely : ¬(session.withCap cap).node.AcceptanceOverflows (session.withCap cap).chain block :=
        overflow
      have offered := offers?_cons_of_timely timely rest
      have same : (session.withCap cap).node.accept (session.withCap cap).chain block =
        ((session.node.accept session.chain block).1,
          (session.node.accept session.chain block).2.1.withCap cap,
          (session.node.accept session.chain block).2.2) := session.node.accept_withCap cap _ block
      have behind := ih ⟨(session.node.accept session.chain block).2.1,
        (session.node.accept session.chain block).2.2⟩
      rw [same] at offered
      rw [offered, offers?_cons_of_timely overflow, Option.map_map]
      refine (congrArg (Option.map _) behind).trans ?_
      rw [Option.map_map]
      rfl

/-- No accepted block of the session holds more requests than its node takes up. -/
def WithinCap (session : Session) : Prop :=
  ∀ block ∈ session.chain.accepted, block.requests.length ≤ session.node.maxRequests

variable {session next last : Session}

private theorem withinCap_start (node : Node) (genesis : Block) : (start node genesis).WithinCap :=
  fun _ member => absurd member List.not_mem_nil

private theorem WithinCap.round (within : session.WithinCap) {round : Round} {roundEnd : RoundEnd}
    (played : session.round? round = some (roundEnd, next)) :
    next.WithinCap ∧ next.node.maxRequests = session.node.maxRequests := by
  have making := session.node.agrees_make round.now round.later session.chain.tip round.requests
  unfold round? at played
  split at played
  · exact nomatch played
  · split at played
    · next failure node failed =>
      rw [failed] at making
      cases played
      refine ⟨?_, making.maxRequests⟩
      intro block member
      rw [making.maxRequests]
      exact within block member
    · next block node made =>
      rw [made] at making
      obtain ⟨holds, few⟩ := Node.requests_of_make made
      have agrees := making.trans (node.agrees_check block)
      dsimp only at played
      split at played
      · exact nomatch played
      · have kept := (node.check block).2.maxRequests_accept session.chain block
        have joins := (node.check block).2.chain_accept session.chain block
        cases played
        refine ⟨?_, kept.trans agrees.maxRequests⟩
        intro other member
        show other.requests.length ≤ ((node.check block).2.accept session.chain block).2.1.maxRequests
        rw [kept, agrees.maxRequests]
        rcases joins with stays | grown
        · exact within other (stays ▸ member)
        · have among : other ∈ (session.chain.push block).accepted := grown ▸ member
          rcases List.mem_append.mp among with before | last
          · exact within other before
          · rw [List.mem_singleton.mp last, holds]
            exact few

private theorem WithinCap.rounds (within : session.WithinCap) {rounds : List Round}
    {ends : List RoundEnd} (played : session.rounds? rounds = some (ends, last)) :
    last.WithinCap ∧ last.node.maxRequests = session.node.maxRequests := by
  induction rounds generalizing session ends with
  | nil =>
    cases played
    exact ⟨within, rfl⟩
  | cons round rest ih =>
    obtain ⟨roundEnd, next, restEnds, one, others, -⟩ := exists_of_rounds?_cons played
    obtain ⟨within, same⟩ := within.round one
    obtain ⟨behind, same'⟩ := ih within others
    exact ⟨behind, same'.trans same⟩

theorem accept_of_made_withCap (paced : session.Paced) {cap : Nat} {now later : Int64}
    {requests : List Request} {block : Block} {maker : Node}
    (covered : session.node.rules.Covers requests)
    (made : (session.node.withCap cap).make now later session.chain.tip requests =
      (.ok block, maker))
    (timely : ¬session.node.AcceptanceOverflows session.chain block) :
    block.requests = requests ∧ (session.node.accept session.chain block).1 = .ok () ∧
      (session.node.accept session.chain block).2.2 = session.chain.push block := by
  have passed : (session.node.withCap cap).rules.checkOn (session.node.withCap cap).schedule
      session.chain.tip block = .ok () := Node.checkOn_of_make covered made
  -- rules and schedule of the maker are those of the session
  change session.node.rules.checkOn session.node.schedule session.chain.tip block = .ok () at passed
  exact ⟨(Node.requests_of_make made).1, (paced.accept timely passed).1,
    Node.chain_accept_of_checkOn passed⟩

/-- Rounds of a node on its own chain keep to the number of requests that it takes up. The verdicts on
blocks, the chain and the schedule do not depend on that number: a block that is made on the tip with
more requests joins like any other. -/
theorem cap_binds_own_rounds (rules : Rules) (adjuster : Difficulty.Adjuster) (maxRequests : Nat)
    (initial : UInt32) (genesis : Block) :
    let session := start (.start rules adjuster maxRequests (.constant initial)) genesis
    (∀ rounds ends last, session.rounds? rounds = some (ends, last) →
      ∀ block ∈ last.chain.accepted, block.requests.length ≤ maxRequests) ∧
    (∀ cap blocks, (session.withCap cap).offers? blocks =
      (session.offers? blocks).map fun (verdicts, last) => (verdicts, last.withCap cap)) ∧
    ∀ operations last, session.run? operations = some last →
      ∀ cap now later requests block maker, rules.Covers requests →
        (last.node.withCap cap).make now later last.chain.tip requests = (.ok block, maker) →
        ¬last.node.AcceptanceOverflows last.chain block →
          block.requests = requests ∧ (last.node.accept last.chain block).1 = .ok () ∧
            (last.node.accept last.chain block).2.2 = last.chain.push block := by
  intro session
  have paced : session.Paced := paced_start rfl genesis
  refine ⟨?_, fun cap blocks => session.offers?_withCap cap blocks, ?_⟩
  · intro rounds ends last played block member
    obtain ⟨within, same⟩ := (withinCap_start _ genesis).rounds played
    rw [← show last.node.maxRequests = maxRequests from same]
    exact within block member
  · intro operations last ran cap now later requests block maker covered made timely
    have settled := (settled_start session.node genesis).run ran
    have paced' : last.Paced :=
      holds_of_run? Paced.of_agrees Paced.offer paced ran
    refine accept_of_made_withCap paced' ?_ made timely
    rw [settled.rules]
    exact covered

/-- A node that takes up three requests has a block of four on its chain. -/
theorem accept_of_four_requests :
    let session := start (.rehearsal (.constant 1)) Block.genesis
    ∃ block, session.node.maxRequests = 3 ∧ block.requests.length = 4 ∧
      (session.node.accept session.chain block).1 = .ok () ∧
      (session.node.accept session.chain block).2.2 = session.chain.push block := by
  intro session
  let requests : List Request := List.replicate 4 (Request.make 7 0 "pay 3" "30")
  let maker : Node := session.node.withCap 4
  have covered : session.node.rules.Covers requests := fun _ known => nomatch known
  have mined : (maker.make 0 0 session.chain.tip requests).1.isOk = true := by decide +kernel
  cases made : maker.make 0 0 session.chain.tip requests with
  | mk result behind =>
    rw [made] at mined
    cases result with
    | error failure => exact absurd mined Bool.false_ne_true
    | ok block =>
      have timely : ¬session.node.AcceptanceOverflows session.chain block :=
        Node.not_acceptanceOverflows (by decide +kernel) block
      obtain ⟨-, -, joins⟩ := cap_binds_own_rounds session.node.rules session.node.adjuster 3 1
        Block.genesis
      obtain ⟨holds, verdict, grown⟩ :=
        joins [] session rfl 4 0 0 requests block behind covered made timely
      have count : block.requests.length = 4 := by
        rw [holds]
        rfl
      exact ⟨block, rfl, count, verdict, grown⟩

end Session

end DelayChain
