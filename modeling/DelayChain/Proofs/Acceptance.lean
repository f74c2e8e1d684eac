import Mathlib.Control.Monad.Basic
import DelayChain.Node.Session
import DelayChain.Proofs.Checks
import DelayChain.Proofs.Schedule

/-!
# Acceptance

A node offers a block to its chain. The block is refused and everything stays, or it joins the chain;
and where it changes the difficulty, the schedule takes the change or refuses it. The last outcome is
a failure behind which the chain has grown.
-/

set_option autoImplicit false
set_option relaxedAutoImplicit false

namespace DelayChain

theorem toNat_greatestHeight : greatestHeight.toNat = 0xffffffffffffffff := rfl

theorem toNat_height_succ {height : UInt64} (small : height ≠ greatestHeight) :
    (height + 1).toNat = height.toNat + 1 := by
  have bound := height.toNat_lt
  have differ : height.toNat ≠ greatestHeight.toNat := fun same => small (UInt64.toNat.inj same)
  rw [toNat_greatestHeight] at differ
  rw [UInt64.toNat_add, UInt64.toNat_one, Nat.mod_eq_of_lt (by omega)]

theorem height_lt_succ {height : UInt64} (small : height ≠ greatestHeight) :
    height < height + 1 := by
  rw [UInt64.lt_iff_toNat_lt, toNat_height_succ small]
  exact Nat.lt_succ_self _

theorem toNat_height_succ_le (height : UInt64) : (height + 1).toNat ≤ height.toNat + 1 := by
  rw [UInt64.toNat_add, UInt64.toNat_one]
  exact Nat.mod_le _ _

namespace Chain

variable {chain : Chain} {block : Block}

@[simp] theorem tip_push : (chain.push block).tip = block := by
  simp only [tip, push, List.getLast?_concat, Option.getD_some]

@[simp] theorem height_push : (chain.push block).height = block.height := by
  simp only [height, tip_push]

theorem push_ne_self : chain.push block ≠ chain := by
  intro same
  have grown : chain.accepted ++ [block] = chain.accepted := congrArg accepted same
  exact absurd (List.append_right_eq_self.mp grown) (List.cons_ne_nil _ _)

theorem append_of_checkOn {rules : Rules} {schedule : Schedule}
    (passed : rules.checkOn schedule chain.tip block = .ok ()) :
    chain.append block = .ok (chain.push block) := by
  -- the checks that passed guard all that the chain guards, and more
  obtain ⟨standing, checked⟩ := Rules.checkOn_eq_ok_iff.mp passed
  obtain ⟨height, link⟩ := Block.checkExtends_eq_ok_iff.mp standing
  obtain ⟨-, -, -, delay⟩ := Rules.check_eq_ok_iff.mp checked
  obtain ⟨proof, -, attached, finalized, -⟩ := Block.checkDelay_eq_ok_iff.mp delay
  have final : block.IsFinalized := ⟨finalized, by rw [attached]; rfl⟩
  rw [append, if_neg (not_not.mpr height), if_neg (not_not.mpr link), if_neg (not_not.mpr final)]

end Chain

namespace Node

variable {node : Node} {chain : Chain} {block : Block}

theorem retarget_of_not_retargets (steady : ¬node.Retargets chain) :
    ∃ next, node.retarget chain = (.ok next, node) := by
  unfold retarget
  by_cases ends : node.EndsWindow chain
  · have same : node.nextDifficulty chain = node.currentDifficulty chain :=
      Decidable.byContradiction fun differ => steady ⟨ends, differ⟩
    simp only [ends, not_true_eq_false, if_false, same, if_true]
    exact ⟨_, rfl⟩
  · simp only [ends, not_false_eq_true, if_true]
    exact ⟨_, rfl⟩

theorem retarget_of_record_eq_ok {schedule : Schedule} (change : node.Retargets chain)
    (made : node.schedule.record (chain.height + 1) (node.nextDifficulty chain) = .ok schedule) :
    node.retarget chain = (.ok (some (node.nextDifficulty chain)), { node with schedule }) := by
  obtain ⟨ends, differ⟩ := change
  simp only [retarget, ends, not_true_eq_false, if_false, differ, made]

theorem retarget_of_record_eq_error {error : ScheduleError} (change : node.Retargets chain)
    (refusal : node.schedule.record (chain.height + 1) (node.nextDifficulty chain) =
      .error error) :
    node.retarget chain = (.error (.schedule error), node) := by
  obtain ⟨ends, differ⟩ := change
  simp only [retarget, ends, not_true_eq_false, if_false, differ, refusal]

theorem tip_ne_greatest (timely : ¬node.AcceptanceOverflows chain block) :
    chain.tip.height ≠ greatestHeight := (not_or.mp timely).1

theorem height_ne_greatest (timely : ¬node.AcceptanceOverflows chain block)
    (passed : node.rules.checkOn node.schedule chain.tip block = .ok ())
    (change : node.Retargets (chain.push block)) : block.height ≠ greatestHeight := by
  intro greatest
  refine (not_or.mp timely).2 ⟨greatest, ?_, change⟩
  rw [passed]
  rfl

theorem not_acceptanceOverflows (room : chain.height.toNat + 1 < greatestHeight.toNat)
    (block : Block) : ¬node.AcceptanceOverflows chain block := by
  have small : chain.tip.height ≠ greatestHeight := by
    intro greatest
    rw [Chain.height, greatest] at room
    omega
  rintro (atTip | ⟨atBlock, passed, -⟩)
  · exact small atTip
  · cases verdict : node.rules.checkOn node.schedule chain.tip block with
    | error reason =>
      rw [verdict] at passed
      exact absurd passed Bool.false_ne_true
    | ok =>
      have next := toNat_height_succ small
      rw [← Rules.height_of_checkOn verdict, atBlock] at next
      rw [Chain.height] at room
      omega

/-- What comes of offering a block to a chain: the verdict, the node and the chain after it. -/
inductive Offer (node : Node) (chain : Chain) (block : Block) :
    Except Failure Unit × Node × Chain → Prop
  /-- The block does not pass on the tip. -/
  | refused (reason : Rejection)
      (fault : node.rules.checkOn node.schedule chain.tip block = .error reason) :
      Offer node chain block (.error (.rejected reason), { node with phase := .rejected }, chain)
  /-- The block joins and the difficulty stays. -/
  | joined (passed : node.rules.checkOn node.schedule chain.tip block = .ok ())
      (steady : ¬node.Retargets (chain.push block)) :
      Offer node chain block (.ok (), { node with phase := .accepted }, chain.push block)
  /-- The block joins and the schedule takes the new difficulty. -/
  | retargeted (passed : node.rules.checkOn node.schedule chain.tip block = .ok ())
      (change : node.Retargets (chain.push block)) (schedule : Schedule)
      (made : node.schedule.record (block.height + 1) (node.nextDifficulty (chain.push block)) =
        .ok schedule) :
      Offer node chain block
        (.ok (), { node with phase := .accepted, schedule }, chain.push block)
  /-- The block joins and the schedule refuses the new difficulty. -/
  | stuck (passed : node.rules.checkOn node.schedule chain.tip block = .ok ())
      (change : node.Retargets (chain.push block)) (error : ScheduleError)
      (refusal : node.schedule.record (block.height + 1) (node.nextDifficulty (chain.push block)) =
        .error error) :
      Offer node chain block
        (.error (.schedule error), { node with phase := .accepted }, chain.push block)

theorem accept_of_checkOn_eq_error {reason : Rejection}
    (fault : node.rules.checkOn node.schedule chain.tip block = .error reason) :
    node.accept chain block =
      (.error (.rejected reason), { node with phase := .rejected }, chain) := by
  unfold Rules.checkOn at fault
  unfold accept check
  cases standing : block.checkExtends chain.tip with
  | error misplaced =>
    rw [standing] at fault
    cases fault
    rfl
  | ok =>
    simp only [standing] at fault
    simp only [fault]

/-- A block that passes on the tip joins the chain before the difficulty is looked at, so it stays
there whatever comes of that. -/
theorem accept_of_retarget_eq
    (passed : node.rules.checkOn node.schedule chain.tip block = .ok ())
    {moved : Except Failure (Option UInt32)} {node' : Node}
    (retargeted : { node with phase := .accepted }.retarget (chain.push block) = (moved, node')) :
    node.accept chain block = (moved.map fun _ => (), node', chain.push block) := by
  have joins := Chain.append_of_checkOn passed
  obtain ⟨standing, checked⟩ := Rules.checkOn_eq_ok_iff.mp passed
  simp only [accept, check, standing, checked, joins, retargeted]
  cases moved with
  | error failure => rfl
  | ok next => rfl

theorem offer_accept (node : Node) (chain : Chain) (block : Block) :
    node.Offer chain block (node.accept chain block) := by
  cases verdict : node.rules.checkOn node.schedule chain.tip block with
  | error reason =>
    rw [accept_of_checkOn_eq_error verdict]
    exact .refused reason verdict
  | ok =>
    by_cases change : node.Retargets (chain.push block)
    · have change' : { node with phase := .accepted }.Retargets (chain.push block) := change
      cases record : node.schedule.record (block.height + 1)
          (node.nextDifficulty (chain.push block)) with
      | error error =>
        rw [accept_of_retarget_eq verdict
          (retarget_of_record_eq_error change' (Chain.height_push ▸ record))]
        exact .stuck verdict change error record
      | ok schedule =>
        rw [accept_of_retarget_eq verdict
          (retarget_of_record_eq_ok change' (Chain.height_push ▸ record))]
        exact .retargeted verdict change schedule record
    · have steady : ¬{ node with phase := .accepted }.Retargets (chain.push block) := change
      obtain ⟨next, same⟩ := retarget_of_not_retargets steady
      rw [accept_of_retarget_eq verdict same]
      exact .joined verdict change

theorem Offer.accept_eq {result : Except Failure Unit × Node × Chain}
    (offered : node.Offer chain block result) : node.accept chain block = result := by
  cases offered with
  | refused reason fault => exact accept_of_checkOn_eq_error fault
  | joined passed steady =>
    have steady' : ¬{ node with phase := .accepted }.Retargets (chain.push block) := steady
    obtain ⟨next, same⟩ := retarget_of_not_retargets steady'
    exact accept_of_retarget_eq passed same
  | retargeted passed change schedule made =>
    have change' : { node with phase := .accepted }.Retargets (chain.push block) := change
    exact accept_of_retarget_eq passed
      (retarget_of_record_eq_ok change' (Chain.height_push ▸ made))
  | stuck passed change error refusal =>
    have change' : { node with phase := .accepted }.Retargets (chain.push block) := change
    exact accept_of_retarget_eq passed
      (retarget_of_record_eq_error change' (Chain.height_push ▸ refusal))

theorem rules_accept (node : Node) (chain : Chain) (block : Block) :
    (node.accept chain block).2.1.rules = node.rules := by
  have offered := node.offer_accept chain block
  generalize node.accept chain block = result at offered ⊢
  cases offered with
  | refused => rfl
  | joined => rfl
  | retargeted => rfl
  | stuck => rfl

theorem chain_accept_of_checkOn
    (passed : node.rules.checkOn node.schedule chain.tip block = .ok ()) :
    (node.accept chain block).2.2 = chain.push block := by
  rw [accept_of_retarget_eq passed rfl]

theorem chain_accept (node : Node) (chain : Chain) (block : Block) :
    (node.accept chain block).2.2 = chain ∨ (node.accept chain block).2.2 = chain.push block := by
  cases verdict : node.rules.checkOn node.schedule chain.tip block with
  | error reason =>
    rw [accept_of_checkOn_eq_error verdict]
    exact .inl rfl
  | ok => exact .inr (chain_accept_of_checkOn verdict)

theorem height_accept_le (node : Node) (chain : Chain) (block : Block) :
    (node.accept chain block).2.2.height.toNat ≤ chain.height.toNat + 1 := by
  cases verdict : node.rules.checkOn node.schedule chain.tip block with
  | error reason =>
    rw [accept_of_checkOn_eq_error verdict]
    exact Nat.le_succ _
  | ok =>
    rw [chain_accept_of_checkOn verdict, Chain.height_push, Rules.height_of_checkOn verdict]
    exact toNat_height_succ_le chain.height

/-- The block passes on the tip, and the change of difficulty it brings comes too late for the
schedule, which holds a later one. -/
def ChangesTooLate (node : Node) (chain : Chain) (block : Block) : Prop :=
  node.rules.checkOn node.schedule chain.tip block = .ok () ∧
    node.Retargets (chain.push block) ∧ block.height + 1 ≤ node.schedule.latest.1

private theorem accept_of_changesTooLate (late : node.ChangesTooLate chain block) :
    node.accept chain block =
      (.error (.schedule ⟨node.schedule.latest.1, block.height + 1⟩),
        { node with phase := .accepted }, chain.push block) := by
  obtain ⟨passed, change, low⟩ := late
  have change' : { node with phase := .accepted }.Retargets (chain.push block) := change
  have refusal : node.schedule.record (block.height + 1) (node.nextDifficulty (chain.push block)) =
      .error ⟨node.schedule.latest.1, block.height + 1⟩ :=
    Schedule.record_eq_error_iff.mpr ⟨low, rfl⟩
  exact accept_of_retarget_eq passed
    (retarget_of_record_eq_error change' (Chain.height_push ▸ refusal))

/-- A failure changes nothing in the schedule, and nothing in the chain unless the change of
difficulty comes too late. In that one case the failure names the schedule and the block has joined
the chain all the same. -/
theorem accept_changes_nothing_iff (node : Node) (chain : Chain) (block : Block) :
    ((∀ failure, (node.accept chain block).1 = .error failure →
        (node.accept chain block).2.2 = chain ∧
          (node.accept chain block).2.1.schedule = node.schedule) ↔
      ¬node.ChangesTooLate chain block) ∧
    (node.ChangesTooLate chain block →
      node.accept chain block =
        (.error (.schedule ⟨node.schedule.latest.1, block.height + 1⟩),
          { node with phase := .accepted }, chain.push block)) := by
  refine ⟨⟨?_, ?_⟩, accept_of_changesTooLate⟩
  · intro unchanged late
    have result := accept_of_changesTooLate late
    rw [result] at unchanged
    exact Chain.push_ne_self (unchanged _ rfl).1
  · intro timely failure failed
    have offered := node.offer_accept chain block
    generalize node.accept chain block = result at offered failed ⊢
    cases offered with
    | refused reason fault => exact ⟨rfl, rfl⟩
    | joined passed steady => exact nomatch failed
    | retargeted passed change schedule made => exact nomatch failed
    | stuck passed change error refusal =>
      -- a refusal of the schedule is what it means to be too late
      obtain ⟨low, -⟩ := Schedule.record_eq_error_iff.mp refusal
      exact absurd ⟨passed, change, low⟩ timely

/-- The second block of a window joins and fails where height one hundred is recorded already. -/
theorem accept_of_record_above_grows :
    ∃ node chain block, ChangesTooLate node chain block ∧
      (node.accept chain block).1 = .error (.schedule ⟨100, 3⟩) ∧
      (node.accept chain block).2.2 = chain.push block := by
  let node : Node := .rehearsal ⟨1, [(100, 5)]⟩
  let first : Block := (node.produced? Block.genesis).getD Block.genesis
  let second : Block := (node.produced? first).getD Block.genesis
  let chain : Chain := (Chain.ofGenesis Block.genesis).push first
  have late : node.ChangesTooLate chain second := by
    unfold ChangesTooLate
    decide +kernel
  have grown := (accept_changes_nothing_iff node chain second).2 late
  have height : second.height = 2 := by decide +kernel
  refine ⟨node, chain, second, late, ?_, ?_⟩
  · rw [grown, height]
    rfl
  · rw [grown]

end Node

end DelayChain
