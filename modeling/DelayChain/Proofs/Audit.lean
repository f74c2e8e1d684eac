import Mathlib.Data.List.Chain
import DelayChain.Proofs.Acceptance
import DelayChain.Proofs.Cycle

/-!
# The audit of an accepted chain

Blocks are checked against the schedule of the moment, and the audit checks them against the schedule
as it is later. The two agree because the schedule grows above the chain only: every change is
recorded for a height that no block has reached.
-/

set_option autoImplicit false
set_option relaxedAutoImplicit false

namespace DelayChain

namespace Chain

variable {chain : Chain}

theorem getLast?_blocks : chain.blocks.getLast? = some chain.tip := by
  unfold blocks tip
  rw [List.getLast?_cons]

theorem exists_parent_of_mem {R : Block → Block → Prop} (linked : chain.blocks.IsChain R)
    {block : Block} (member : block ∈ chain.accepted) : ∃ parent, R parent block := by
  unfold blocks at linked
  generalize chain.genesis = first at linked
  generalize chain.accepted = blocks at linked member
  induction blocks generalizing first with
  | nil => exact absurd member List.not_mem_nil
  | cons next rest ih =>
    obtain ⟨link, linked⟩ := List.isChain_cons_cons.mp linked
    rcases List.mem_cons.mp member with rfl | later
    · exact ⟨first, link⟩
    · exact ih next linked later

end Chain

namespace Node

/-- A block passes on the one before it, by the rules and the schedule of a node. -/
def Follows (node : Node) (parent block : Block) : Prop :=
  node.rules.checkOn node.schedule parent block = .ok ()

private theorem auditFrom_eq_ok_iff (node : Node) (parent : Block) (blocks : List Block) :
    node.auditFrom parent blocks = .ok () ↔ (parent :: blocks).IsChain node.Follows := by
  induction blocks generalizing parent with
  | nil =>
    rw [auditFrom]
    exact ⟨fun _ => .singleton parent, fun _ => rfl⟩
  | cons block rest ih =>
    rw [auditFrom, List.isChain_cons_cons, ← ih block, Follows]
    cases node.rules.checkOn node.schedule parent block with
    | error reason => simp only [reduceCtorEq, false_and]
    | ok => simp only [true_and]

theorem audit_eq_ok_iff {node : Node} {chain : Chain} :
    node.audit chain = .ok () ↔ chain.blocks.IsChain node.Follows :=
  node.auditFrom_eq_ok_iff chain.genesis chain.accepted

private theorem Agrees.follows {node node' : Node} (agrees : node.Agrees node') :
    node'.Follows = node.Follows := by
  unfold Follows
  rw [agrees.rules, agrees.schedule]

private theorem Follows.meets {node : Node} {parent block : Block}
    (follows : node.Follows parent block) :
    ∃ workHash, block.workHash = some workHash ∧
      Hasher.Meets workHash (node.schedule.difficultyAt block.height) := by
  obtain ⟨-, checked⟩ := Rules.checkOn_eq_ok_iff.mp follows
  obtain ⟨worked, -⟩ := Rules.check_eq_ok_iff.mp checked
  obtain ⟨sealed, least, met⟩ := Block.checkWork_eq_ok_iff.mp worked
  exact ⟨_, sealed, (UInt32.le_iff_toNat_le.mp least).trans met⟩

private theorem Follows.of_record {node : Node} {parent block : Block} {schedule : Schedule}
    {height : UInt64} {difficulty : UInt32} (follows : node.Follows parent block)
    (made : node.schedule.record height difficulty = .ok schedule) (lower : block.height < height) :
    { node with schedule }.Follows parent block := by
  have same := Schedule.difficultyAt_of_record_eq_ok made lower
  exact (Rules.checkOn_congr same).trans follows

end Node

namespace Session

/-- What holds of every state: each block follows the one before by the schedule at hand, and none
stands above the tip. -/
structure Sound (session : Session) : Prop where
  linked : session.chain.blocks.IsChain session.node.Follows
  below_tip : ∀ block ∈ session.chain.accepted, block.height ≤ session.chain.height

theorem sound_start (node : Node) (genesis : Block) : (start node genesis).Sound where
  linked := .singleton genesis
  below_tip _ member := absurd member List.not_mem_nil

namespace Sound

variable {node node' : Node} {chain : Chain} {block : Block}

private theorem of_agrees (sound : Sound ⟨node, chain⟩) (agrees : node.Agrees node') :
    Sound ⟨node', chain⟩ where
  linked := by
    rw [agrees.follows]
    exact sound.linked
  below_tip := sound.below_tip

private theorem push (sound : Sound ⟨node, chain⟩) (follows : node.Follows chain.tip block)
    (small : chain.tip.height ≠ greatestHeight) : Sound ⟨node, chain.push block⟩ where
  linked := by
    refine sound.linked.append (.singleton block) ?_
    intro last isLast first isFirst
    rw [Chain.getLast?_blocks, Option.mem_some_iff] at isLast
    rw [List.head?_cons, Option.mem_some_iff] at isFirst
    rwa [← isLast, ← isFirst]
  below_tip := by
    intro accepted member
    rw [Chain.height_push]
    rcases List.mem_append.mp member with earlier | new
    · have under := sound.below_tip accepted earlier
      rw [Rules.height_of_checkOn follows]
      exact UInt64.le_of_lt (UInt64.lt_of_le_of_lt under (height_lt_succ small))
    · rw [List.mem_singleton.mp new]
      exact UInt64.le_refl _

private theorem record (sound : Sound ⟨node, chain⟩) {schedule : Schedule} {height : UInt64}
    {difficulty : UInt32} (made : node.schedule.record height difficulty = .ok schedule)
    (above : chain.height < height) : Sound ⟨{ node with schedule }, chain⟩ where
  linked := by
    refine sound.linked.imp_of_mem_tail_imp ?_
    intro parent block _ member follows
    -- no block stands above the tip, so none comes to see the new entry
    have under := sound.below_tip block member
    exact follows.of_record made (UInt64.lt_of_le_of_lt under above)
  below_tip := sound.below_tip

private theorem accept (sound : Sound ⟨node, chain⟩) (timely : ¬node.AcceptanceOverflows chain block) :
    Sound ⟨(node.accept chain block).2.1, (node.accept chain block).2.2⟩ := by
  have small := Node.tip_ne_greatest timely
  have offered := node.offer_accept chain block
  generalize node.accept chain block = result at offered ⊢
  cases offered with
  | refused reason fault => exact sound.of_agrees ⟨rfl, rfl, rfl, rfl⟩
  | joined passed steady => exact (sound.push passed small).of_agrees ⟨rfl, rfl, rfl, rfl⟩
  | retargeted passed change schedule made =>
    have above : (chain.push block).height < block.height + 1 := by
      rw [Chain.height_push]
      exact height_lt_succ (Node.height_ne_greatest timely passed change)
    exact ((sound.push passed small).record made above).of_agrees ⟨rfl, rfl, rfl, rfl⟩
  | stuck passed change error refusal =>
    -- the block stays behind the failure, and so does the schedule by which it passed
    exact (sound.push passed small).of_agrees ⟨rfl, rfl, rfl, rfl⟩

theorem run {session last : Session} (sound : session.Sound) {operations : List Operation}
    (ran : session.run? operations = some last) : last.Sound :=
  holds_of_run? of_agrees accept sound ran

end Sound

/-- In every state that a session comes to, the audit of the chain passes and every accepted block
meets the difficulty that the schedule holds for its height. The runs are those of a build with overflow
checks: an operation that counts on from the greatest height ends the process, so no state lies behind
it. -/
theorem audit_of_run_eq_some {node : Node} {genesis : Block} {operations : List Operation}
    {session : Session} (reached : (start node genesis).run? operations = some session) :
    session.node.audit session.chain = .ok () ∧
      ∀ block ∈ session.chain.accepted, ∃ workHash, block.workHash = some workHash ∧
        Hasher.Meets workHash (session.node.schedule.difficultyAt block.height) := by
  have sound := (sound_start node genesis).run reached
  refine ⟨Node.audit_eq_ok_iff.mpr sound.linked, ?_⟩
  intro block member
  obtain ⟨parent, follows⟩ := Chain.exists_parent_of_mem sound.linked member
  exact follows.meets

/-- Two blocks that fill a window raise the difficulty, and still pass the audit. -/
theorem audit_after_window :
    ∃ operations session,
      (start (.rehearsal (.constant 1)) Block.genesis).run? operations = some session ∧
        session.chain.accepted.length = 2 ∧ session.node.schedule = ⟨1, [(3, 2)]⟩ ∧
        session.node.audit session.chain = .ok () ∧
        ∀ block ∈ session.chain.accepted, ∃ workHash, block.workHash = some workHash ∧
          Hasher.Meets workHash (session.node.schedule.difficultyAt block.height) := by
  let node : Node := .rehearsal (.constant 1)
  let first : Block := (node.produced? Block.genesis).getD Block.genesis
  let second : Block := (node.produced? first).getD Block.genesis
  let operations : List Operation :=
    [.propose 0 Block.genesis [], .accept second, .accept first, .accept second, .audit]
  have ran : ((start node Block.genesis).run? operations).map
      (fun session => (session.chain.accepted.length, session.node.schedule)) =
        some (2, ⟨1, [(3, 2)]⟩) := by decide +kernel
  obtain ⟨session, reached, state⟩ := Option.map_eq_some_iff.mp ran
  obtain ⟨length, schedule⟩ := Prod.mk.inj state
  exact ⟨operations, session, reached, length, schedule, audit_of_run_eq_some reached⟩

end Session

end DelayChain
