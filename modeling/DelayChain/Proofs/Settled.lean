import DelayChain.Proofs.Audit

/-!
# The schedule as a function of the chain

A node retargets behind each block that joins its chain, and at no other time. Its schedule is thus
decided by the one it began with and by the chain as it stands; and of the chain by two things only:
the heights, which linked blocks count up from the first one, and the pace of every full window.
-/

set_option autoImplicit false
set_option relaxedAutoImplicit false

namespace DelayChain

namespace Chain

variable {chain : Chain} {block : Block} {count : Nat}

/-- The chain as it was with some number of accepted blocks. -/
def upTo (chain : Chain) (count : Nat) : Chain :=
  { chain with accepted := chain.accepted.take count }

theorem upTo_length : chain.upTo chain.accepted.length = chain := by
  simp only [upTo, List.take_length]

theorem upTo_push_of_le (within : count ≤ chain.accepted.length) :
    (chain.push block).upTo count = chain.upTo count := by
  simp only [upTo, push, List.take_append_of_le_length within]

private theorem upTo_succ (within : count < chain.accepted.length) :
    chain.upTo (count + 1) = (chain.upTo count).push chain.accepted[count] := by
  simp only [upTo, push, List.take_append_getElem within]

theorem length_push : (chain.push block).accepted.length = chain.accepted.length + 1 := by
  simp only [push, List.length_append, List.length_singleton]

private theorem rel_tip_upTo {R : Block → Block → Prop} (linked : chain.blocks.IsChain R)
    (within : count < chain.accepted.length) : R (chain.upTo count).tip chain.accepted[count] := by
  have start : (chain.upTo (count + 1)).blocks.IsChain R := linked.take (count + 2)
  rw [upTo_succ within] at start
  have parts : ((chain.upTo count).blocks ++ [chain.accepted[count]]).IsChain R := start
  rw [List.isChain_append] at parts
  exact parts.2.2 _ getLast?_blocks _ rfl

theorem height_upTo
    (linked : chain.blocks.IsChain fun parent block => block.height = parent.height + 1)
    (within : count ≤ chain.accepted.length) :
    (chain.upTo count).height = chain.genesis.height + UInt64.ofNat count := by
  induction count with
  | zero => simp [height, tip, upTo]
  | succ count ih =>
    have parent := ih (Nat.le_of_succ_le within)
    have follows := rel_tip_upTo linked within
    rw [upTo_succ within, height_push, follows, ← height, parent, UInt64.ofNat_add,
      UInt64.add_assoc]
    rfl

end Chain

namespace Difficulty.Adjuster

private theorem retarget_congr {adjuster : Adjuster} {times times' : List Int64}
    (same : adjuster.factor? times = adjuster.factor? times') (current : UInt32) :
    adjuster.retarget times current = adjuster.retarget times' current := by
  rw [retarget, retarget, same]

end Difficulty.Adjuster

namespace Node

variable {node node' : Node} {chain chain' : Chain} {block : Block} {count : Nat}

/-- The pace of the newest window of a chain: the factor that its difficulty is adjusted by. -/
def pace? (node : Node) (chain : Chain) : Option Difficulty.Binary64 :=
  node.adjuster.factor? (chain.accepted.map (·.timestamp))

private theorem schedule_retarget (node : Node) (chain : Chain) :
    (node.retarget chain).2.schedule =
      if node.Retargets chain then
        (node.schedule.record (chain.height + 1) (node.nextDifficulty chain)).toOption.getD
          node.schedule
      else node.schedule := by
  by_cases change : node.Retargets chain
  · rw [if_pos change]
    cases made : node.schedule.record (chain.height + 1) (node.nextDifficulty chain) with
    | error error =>
      rw [retarget_of_record_eq_error change made]
      rfl
    | ok schedule =>
      rw [retarget_of_record_eq_ok change made]
      rfl
  · obtain ⟨next, same⟩ := retarget_of_not_retargets change
    rw [if_neg change, same]

theorem snd_retarget (node : Node) (chain : Chain) :
    (node.retarget chain).2 = { node with schedule := (node.retarget chain).2.schedule } := by
  unfold retarget
  split
  · rfl
  · dsimp only
    split
    · rfl
    · split
      · rfl
      · rfl

private theorem schedule_retarget_congr (adjuster : node'.adjuster = node.adjuster)
    (schedule : node'.schedule = node.schedule)
    (length : chain'.accepted.length = chain.accepted.length)
    (height : chain'.height = chain.height)
    (pace : node.EndsWindow chain → node.pace? chain' = node.pace? chain) :
    (node'.retarget chain').2.schedule = (node.retarget chain).2.schedule := by
  have ends : node'.EndsWindow chain' ↔ node.EndsWindow chain := by
    simp only [EndsWindow, ← List.length_pos_iff_ne_nil, length, adjuster]
  by_cases full : node.EndsWindow chain
  · have current : node'.currentDifficulty chain' = node.currentDifficulty chain := by
      rw [currentDifficulty, currentDifficulty, schedule, height]
    have next : node'.nextDifficulty chain' = node.nextDifficulty chain := by
      rw [nextDifficulty, nextDifficulty, current, adjuster]
      exact Difficulty.Adjuster.retarget_congr (pace full) _
    have change : node'.Retargets chain' ↔ node.Retargets chain := by
      rw [Retargets, Retargets, ends, next, current]
    simp only [schedule_retarget, change, schedule, height, next]
  · have steady : ¬node.Retargets chain := fun change => full change.1
    have steady' : ¬node'.Retargets chain' := fun change => full (ends.mp change.1)
    rw [schedule_retarget, schedule_retarget, if_neg steady, if_neg steady', schedule]

/-- The schedule behind the first accepted blocks of a chain, with a retarget behind each of them. -/
def scheduleAfter (node : Node) (chain : Chain) : (count : Nat) → Schedule
  | 0 => node.schedule
  | count + 1 =>
    let earlier := { node with schedule := node.scheduleAfter chain count }
    (earlier.retarget (chain.upTo (count + 1))).2.schedule

/-- The schedule that a node comes to on a chain. -/
def scheduleOn (node : Node) (chain : Chain) : Schedule :=
  node.scheduleAfter chain chain.accepted.length

private theorem scheduleAfter_push (within : count ≤ chain.accepted.length) :
    node.scheduleAfter (chain.push block) count = node.scheduleAfter chain count := by
  induction count with
  | zero => rfl
  | succ count ih =>
    rw [scheduleAfter, scheduleAfter, ih (Nat.le_of_succ_le within), Chain.upTo_push_of_le within]

private theorem scheduleOn_push (node : Node) (chain : Chain) (block : Block) :
    node.scheduleOn (chain.push block) =
      ({ node with schedule := node.scheduleOn chain }.retarget (chain.push block)).2.schedule := by
  unfold scheduleOn
  rw [Chain.length_push, scheduleAfter, scheduleAfter_push (Nat.le_refl _), ← Chain.length_push,
    Chain.upTo_length]

/-- Chains of one length whose heights agree lead to one schedule, unless at the end of a window they
have gone at different paces. -/
theorem scheduleAfter_congr (agrees : node.Agrees node')
    (within : count ≤ chain.accepted.length) (within' : count ≤ chain'.accepted.length)
    (heights : ∀ earlier ≤ count, (chain'.upTo earlier).height = (chain.upTo earlier).height)
    (paces : ∀ earlier ≤ count, node.EndsWindow (chain.upTo earlier) →
      node.pace? (chain'.upTo earlier) = node.pace? (chain.upTo earlier)) :
    node'.scheduleAfter chain' count = node.scheduleAfter chain count := by
  induction count with
  | zero => exact agrees.schedule
  | succ count ih =>
    have before := ih (Nat.le_of_succ_le within) (Nat.le_of_succ_le within')
      (fun earlier under => heights earlier (Nat.le_succ_of_le under))
      (fun earlier under => paces earlier (Nat.le_succ_of_le under))
    refine schedule_retarget_congr agrees.adjuster before ?_ (heights _ (Nat.le_refl _))
      (paces _ (Nat.le_refl _))
    simp only [Chain.upTo, List.length_take_of_le within, List.length_take_of_le within']

/-- A chain that a node takes up block by block: each passes on the ones before, by the schedule that
the node comes to on those. -/
inductive TakesUp (node : Node) (genesis : Block) : Chain → Prop
  | foot : TakesUp node genesis (Chain.ofGenesis genesis)
  | push {chain : Chain} {block : Block} (takesUp : TakesUp node genesis chain)
      (passed : node.rules.checkOn (node.scheduleOn chain) chain.tip block = .ok ())
      (small : chain.tip.height ≠ greatestHeight) (below : block.height ≠ greatestHeight) :
      TakesUp node genesis (chain.push block)

end Node

namespace Session

/-- The node of a session is what the first node comes to on the chain of the session, but for where
it stands in its cycle. -/
structure Settled (node : Node) (genesis : Block) (session : Session) : Prop where
  genesis : session.chain.genesis = genesis
  agrees : { node with schedule := node.scheduleOn session.chain }.Agrees session.node

theorem settled_start (node : Node) (genesis : Block) :
    Settled node genesis (start node genesis) := ⟨rfl, Node.Agrees.refl node⟩

namespace Settled

variable {first node node' : Node} {genesis block : Block} {chain : Chain}

theorem rules {session : Session} (settled : Settled first genesis session) :
    session.node.rules = first.rules := settled.agrees.rules

theorem schedule {session : Session} (settled : Settled first genesis session) :
    session.node.schedule = first.scheduleOn session.chain := settled.agrees.schedule

private theorem of_agrees (settled : Settled first genesis ⟨node, chain⟩) (agrees : node.Agrees node') :
    Settled first genesis ⟨node', chain⟩ := ⟨settled.genesis, settled.agrees.trans agrees⟩

private theorem accept (settled : Settled first genesis ⟨node, chain⟩) (block : Block) :
    Settled first genesis ⟨(node.accept chain block).2.1, (node.accept chain block).2.2⟩ := by
  cases verdict : node.rules.checkOn node.schedule chain.tip block with
  | error reason =>
    rw [Node.accept_of_checkOn_eq_error verdict]
    exact settled.of_agrees ⟨rfl, rfl, rfl, rfl⟩
  | ok =>
    let accepting : Node := { node with phase := .accepted }
    have joined : node.accept chain block = ((accepting.retarget (chain.push block)).1.map fun _ => (),
        (accepting.retarget (chain.push block)).2, chain.push block) :=
      Node.accept_of_retarget_eq verdict rfl
    obtain ⟨rules, adjuster, maxRequests, schedule⟩ := settled.agrees
    rw [joined, Node.snd_retarget]
    refine ⟨settled.genesis, rules, adjuster, maxRequests, ?_⟩
    rw [Node.scheduleOn_push]
    exact Node.schedule_retarget_congr adjuster schedule rfl rfl fun _ => rfl

theorem run {session last : Session} (settled : Settled first genesis session)
    {operations : List Operation} (ran : session.run? operations = some last) :
    Settled first genesis last :=
  holds_of_run? of_agrees (fun settled _ => settled.accept _) settled ran

end Settled

private theorem run?_append (session : Session) (operations later : List Operation) :
    session.run? (operations ++ later) =
      (session.run? operations).bind fun session => session.run? later := by
  induction operations generalizing session with
  | nil => rfl
  | cons operation rest ih =>
    rw [List.cons_append, run?, run?]
    cases session.step? operation with
    | none => rfl
    | some next => exact ih next

private theorem step?_accept_of_checkOn {session : Session} {block : Block}
    (passed : session.node.rules.checkOn session.node.schedule session.chain.tip block = .ok ())
    (small : session.chain.tip.height ≠ greatestHeight) (below : block.height ≠ greatestHeight) :
    ∃ node, session.step? (.accept block) = some ⟨node, session.chain.push block⟩ := by
  have timely : ¬session.Overflows (.accept block) := by
    rintro (atTip | ⟨atBlock, -⟩)
    · exact small atTip
    · exact below atBlock
  refine ⟨(session.node.accept session.chain block).2.1, ?_⟩
  rw [step?, if_neg timely, perform, Node.accept_of_retarget_eq passed rfl]

/-- Offering the blocks of such a chain one after another leads to the chain and to its schedule. -/
theorem exists_run_of_takesUp {node : Node} {genesis : Block} {chain : Chain}
    (takesUp : node.TakesUp genesis chain) :
    ∃ session, (start node genesis).run? (chain.accepted.map .accept) = some session ∧
      session.chain = chain ∧ session.node.schedule = node.scheduleOn chain := by
  induction takesUp with
  | foot => exact ⟨start node genesis, rfl, rfl, rfl⟩
  | @push chain block _ passed small below ih =>
    obtain ⟨session, ran, rfl, schedule⟩ := ih
    have settled := (settled_start node genesis).run ran
    rw [← settled.rules, ← schedule] at passed
    obtain ⟨grown, stepped⟩ := step?_accept_of_checkOn passed small below
    have rerun : (start node genesis).run? ((session.chain.push block).accepted.map .accept) =
        some ⟨grown, session.chain.push block⟩ := by
      simp only [Chain.push, List.map_append, List.map_singleton, run?_append, ran,
        Option.bind_some, run?, stepped]
    exact ⟨_, rerun, rfl, ((settled_start node genesis).run rerun).schedule⟩

end Session

end DelayChain
