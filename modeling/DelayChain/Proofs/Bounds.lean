import DelayChain.Proofs.Attainable
import DelayChain.Proofs.Pace

/-!
# The bounds of a retarget

A retarget gives one at least, whatever the difficulty was. Its cap only holds back a rise: a difficulty
that stands above the cap stays there through every window that is not too slow, and each slow window
takes one off. So how far the first difficulty of a node may stand above the cap and still come down to
it is the number of slow windows of its chain.
-/

set_option autoImplicit false
set_option relaxedAutoImplicit false

namespace DelayChain

namespace Difficulty.Adjuster

open Binary64

variable {adjuster : Adjuster} {times : List Int64}

/-- The blocks of the newest full window came slower than the target asks for. -/
def isSlow (adjuster : Adjuster) (times : List Int64) : Bool :=
  (adjuster.factor? times).any fun factor => decide (Less factor one)

private theorem not_less_one_of_less_one {factor : Binary64} (slow : Less factor one) :
    ¬Less one factor := by
  simp only [Less] at slow ⊢
  omega

private theorem toNat_retarget_of_cap_lt (positive : 1 ≤ adjuster.cap.toNat) {current : UInt32}
    (above : adjuster.cap.toNat < current.toNat) (times : List Int64) :
    (adjuster.retarget times current).toNat + (if adjuster.isSlow times then 1 else 0) =
      current.toNat := by
  unfold retarget isSlow
  cases adjuster.factor? times with
  | none => rfl
  | some factor =>
    simp only [Option.any_some, toNat_max_one, toNat_step, decide_eq_true_eq]
    by_cases slow : Less factor one
    · rw [if_neg (not_less_one_of_less_one slow), if_pos slow, if_pos slow]
      omega
    · rw [if_neg slow, if_neg slow, if_neg (Nat.not_lt.mpr above.le)]
      split <;> omega

/-- A retarget stays as close to the cap as asked for exactly if the difficulty before did, where a slow
window allows for one more. -/
private theorem retarget_le_iff (positive : 1 ≤ adjuster.cap.toNat) (times : List Int64)
    (current : UInt32) (excess : Nat) :
    (adjuster.retarget times current).toNat ≤ adjuster.cap.toNat + excess ↔
      current.toNat ≤ adjuster.cap.toNat + excess + (if adjuster.isSlow times then 1 else 0) := by
  by_cases above : adjuster.cap.toNat < current.toNat
  · have moved := toNat_retarget_of_cap_lt positive above times
    omega
  · have within := (retarget_le positive times current).2
    omega

private theorem retarget_le_cap_iff (positive : 1 ≤ adjuster.cap.toNat) (times : List Int64)
    (current : UInt32) :
    adjuster.retarget times current ≤ adjuster.cap ↔ current ≤ adjuster.cap ∨
      (current.toNat = adjuster.cap.toNat + 1 ∧ adjuster.isSlow times = true) := by
  have capped := retarget_le_iff positive times current 0
  simp only [UInt32.le_iff_toNat_le]
  cases slow : adjuster.isSlow times with
  | false =>
    rw [slow, if_neg Bool.false_ne_true] at capped
    simp only [Bool.false_eq_true, and_false, or_false]
    exact capped
  | true =>
    rw [slow, if_pos rfl] at capped
    simp only [and_true]
    omega

private theorem one_le_retarget (nonempty : 0 < adjuster.window) (full : adjuster.window ≤ times.length)
    (current : UInt32) : 1 ≤ (adjuster.retarget times current).toNat := by
  obtain ⟨first, last, spans⟩ := exists_spans nonempty full
  rw [spans.retarget_eq, toNat_max_one]
  exact Nat.le_max_right _ _

end Difficulty.Adjuster

namespace Node

variable {node node' : Node}

/-- How many of the full windows of a chain, one behind another, were slow ones. -/
def slowWindows (node : Node) (chain : Chain) : Nat :=
  (List.range (chain.accepted.length + 1)).countP fun count =>
    decide (node.EndsWindow (chain.upTo count)) &&
      node.adjuster.isSlow ((chain.upTo count).accepted.map (·.timestamp))

private theorem slowWindows_congr (same : node'.adjuster = node.adjuster) (chain : Chain) :
    node'.slowWindows chain = node.slowWindows chain := by
  have ends (chain : Chain) : node'.EndsWindow chain ↔ node.EndsWindow chain := by
    rw [EndsWindow, EndsWindow, same]
  simp only [slowWindows, ends, same]

private theorem slowWindows_push (node : Node) (chain : Chain) (block : Block) :
    node.slowWindows (chain.push block) = node.slowWindows chain +
      if node.EndsWindow (chain.push block) ∧
        node.adjuster.isSlow ((chain.push block).accepted.map (·.timestamp)) = true
        then 1 else 0 := by
  unfold slowWindows
  rw [List.range_succ, List.countP_append, List.countP_singleton, Chain.upTo_length, Chain.length_push]
  congr 1
  · refine List.countP_congr ?_
    intro count earlier
    rw [Chain.upTo_push_of_le (Nat.le_of_lt_succ (List.mem_range.mp earlier))]
  · simp only [Bool.and_eq_true, decide_eq_true_eq]

end Node

namespace Session

variable {adjuster : Difficulty.Adjuster} {initial : UInt32}

/-- What holds of every state of a node with a schedule of its own: the newest difficulty is as close to the
cap as asked for exactly if the first one was, where each slow window allows for one more. -/
structure Tallied (adjuster : Difficulty.Adjuster) (initial : UInt32) (session : Session) : Prop where
  shaped : Shaped adjuster initial session
  tallied : ∀ excess, session.node.schedule.latest.2.toNat ≤ adjuster.cap.toNat + excess ↔
    initial.toNat ≤ adjuster.cap.toNat + excess + session.node.slowWindows session.chain

private theorem tallied_start (rules : Rules) (adjuster : Difficulty.Adjuster) (maxRequests : Nat)
    (initial : UInt32) :
    Tallied adjuster initial
      (start (.start rules adjuster maxRequests (.constant initial)) Block.genesis) where
  shaped := shaped_start rules adjuster maxRequests initial
  tallied _ := Iff.rfl

namespace Tallied

variable {node node' : Node} {chain : Chain} {block : Block}

private theorem of_agrees (tallied : Tallied adjuster initial ⟨node, chain⟩)
    (agrees : node.Agrees node') :
    Tallied adjuster initial ⟨node', chain⟩ where
  shaped := tallied.shaped.of_agrees agrees
  tallied := by
    show ∀ excess, node'.schedule.latest.2.toNat ≤ adjuster.cap.toNat + excess ↔
      initial.toNat ≤ adjuster.cap.toNat + excess + node'.slowWindows chain
    rw [agrees.schedule, Node.slowWindows_congr agrees.adjuster]
    exact tallied.tallied

private theorem push_of_not_endsWindow (tallied : Tallied adjuster initial ⟨node, chain⟩)
    (within : ¬node.EndsWindow (chain.push block)) (excess : Nat) :
    node.schedule.latest.2.toNat ≤ adjuster.cap.toNat + excess ↔
      initial.toNat ≤ adjuster.cap.toNat + excess + node.slowWindows (chain.push block) := by
  rw [Node.slowWindows_push, if_neg fun counted => within counted.1]
  exact tallied.tallied excess

private theorem push_of_endsWindow (tallied : Tallied adjuster initial ⟨node, chain⟩)
    (positive : 1 ≤ adjuster.cap.toNat) (timely : ¬node.AcceptanceOverflows chain block)
    (passed : node.rules.checkOn node.schedule chain.tip block = .ok ())
    (ends : node.EndsWindow (chain.push block)) (excess : Nat) :
    (node.nextDifficulty (chain.push block)).toNat ≤ adjuster.cap.toNat + excess ↔
      initial.toNat ≤ adjuster.cap.toNat + excess + node.slowWindows (chain.push block) := by
  have adjusts : node.adjuster = adjuster := tallied.shaped.adjusts
  rw [Node.nextDifficulty, tallied.shaped.currentDifficulty_push timely passed, adjusts,
    Difficulty.Adjuster.retarget_le_iff positive, Nat.add_assoc, tallied.tallied, Node.slowWindows_push,
    adjusts]
  simp only [ends, true_and]
  omega

private theorem offer (tallied : Tallied adjuster initial ⟨node, chain⟩)
    (positive : 1 ≤ adjuster.cap.toNat) (timely : ¬node.AcceptanceOverflows chain block) :
    Tallied adjuster initial ⟨(node.accept chain block).2.1, (node.accept chain block).2.2⟩ := by
  have shaped := tallied.shaped.offer positive timely
  have welcome := tallied.shaped.paced.accept timely
  have offered := node.offer_accept chain block
  generalize node.accept chain block = result at shaped welcome offered ⊢
  cases offered with
  | refused reason fault => exact tallied.of_agrees ⟨rfl, rfl, rfl, rfl⟩
  | joined passed steady =>
    refine ⟨shaped, ?_⟩
    by_cases ends : node.EndsWindow (chain.push block)
    · -- the retarget left the difficulty as it was
      have same : node.nextDifficulty (chain.push block) = node.currentDifficulty (chain.push block) :=
        Decidable.byContradiction fun differ => steady ⟨ends, differ⟩
      have counts := tallied.push_of_endsWindow positive timely passed ends
      rw [same, tallied.shaped.currentDifficulty_push timely passed] at counts
      exact counts
    · exact tallied.push_of_not_endsWindow ends
  | retargeted passed change schedule made =>
    refine ⟨shaped, ?_⟩
    show ∀ excess, schedule.latest.2.toNat ≤ _ ↔ _
    rw [Schedule.latest_of_record_eq_ok made]
    exact tallied.push_of_endsWindow positive timely passed change.1
  | stuck passed change error refusal => exact nomatch (welcome passed).1

private theorem run {session last : Session} (tallied : Tallied adjuster initial session)
    (positive : 1 ≤ adjuster.cap.toNat) {operations : List Operation}
    (ran : session.run? operations = some last) : Tallied adjuster initial last :=
  holds_of_run? of_agrees (fun tallied timely => tallied.offer positive timely) tallied ran

end Tallied

/-- Behind a full window the difficulty is one at least, and no rise takes it above the cap. But it is at
the cap or below exactly if it was before, or was one above and the window was slow. So on the chain of a
node with a constant schedule of its own the newest difficulty is at the cap or below exactly if there were
at least as many slow windows as the first one was above. -/
theorem within_cap_iff (window : Nat) (seconds : Int) (cap : UInt32) :
    let adjuster := Difficulty.Adjuster.of window seconds cap
    (∀ (times : List Int64) (current : UInt32), adjuster.window ≤ times.length →
      let next := adjuster.retarget times current
      1 ≤ next ∧ next.toNat ≤ max current.toNat adjuster.cap.toNat ∧
        (next ≤ adjuster.cap ↔ current ≤ adjuster.cap ∨
          (current.toNat = adjuster.cap.toNat + 1 ∧ adjuster.isSlow times = true))) ∧
    ∀ (rules : Rules) (maxRequests : Nat) (initial : UInt32) (operations : List Operation)
      (session : Session),
      (start (.start rules adjuster maxRequests (.constant initial)) Block.genesis).run? operations =
        some session →
      (session.node.schedule.latest.2 ≤ adjuster.cap ↔
        initial.toNat ≤ adjuster.cap.toNat + session.node.slowWindows session.chain) := by
  have nonempty : 0 < (Difficulty.Adjuster.of window seconds cap).window :=
    two_pos.trans_le (Difficulty.Adjuster.two_le_window seconds window cap)
  have positive := Difficulty.Adjuster.cap_of_positive window seconds cap
  constructor
  · intro times current full
    refine ⟨?_, (Difficulty.Adjuster.retarget_le positive times current).2,
      Difficulty.Adjuster.retarget_le_cap_iff positive times current⟩
    rw [UInt32.le_iff_toNat_le]
    exact Difficulty.Adjuster.one_le_retarget nonempty full current
  · intro rules maxRequests initial operations session ran
    have tallied := (tallied_start rules (.of window seconds cap) maxRequests initial).run positive ran
    rw [UInt32.le_iff_toNat_le]
    exact tallied.tallied 0

/-- A first difficulty of two above a cap of one: a fast window leaves it there, a slow one behind that
takes it down to the cap. -/
theorem within_cap_iff_of_two :
    ∃ window later early late,
      let node : Node := .start (Node.rehearsal (.constant 2)).rules (.of 2 600 1) 3 (.constant 2)
      (start node Block.genesis).run? window = some early ∧
        early.node.slowWindows early.chain = 0 ∧ ¬early.node.schedule.latest.2 ≤ 1 ∧
        (start node Block.genesis).run? later = some late ∧
        late.node.slowWindows late.chain = 1 ∧ late.node.schedule.latest.2 ≤ 1 ∧
        (1 : UInt32) ≤ node.adjuster.retarget [0, 0] 0 := by
  let rules : Rules := (Node.rehearsal (.constant 2)).rules
  let node : Node := .start rules (.of 2 600 1) 3 (.constant 2)
  let first : Block := { Block.rehearsed Block.genesis 0 with difficulty := 2 }
  let second : Block := { Block.rehearsed first 0 with difficulty := 2 }
  let third : Block := { Block.rehearsed second 0 with difficulty := 2 }
  let fourth : Block := { Block.rehearsed third 1200001 with difficulty := 2 }
  let window : List Operation := [.accept first, .accept second]
  let later : List Operation := [.accept first, .accept second, .accept third, .accept fourth]
  let tally (operations : List Operation) : Option Nat :=
    ((start node Block.genesis).run? operations).map
      fun session => session.node.slowWindows session.chain
  have counted : (tally window, tally later) = (some 0, some 1) := by decide +kernel
  obtain ⟨fast, slow⟩ := Prod.mk.inj counted
  obtain ⟨early, ran, zero⟩ := Option.map_eq_some_iff.mp fast
  obtain ⟨late, ran', one⟩ := Option.map_eq_some_iff.mp slow
  obtain ⟨single, runs⟩ := within_cap_iff 2 600 1
  have before := runs rules 3 2 window early ran
  have behind := runs rules 3 2 later late ran'
  rw [zero] at before
  rw [one] at behind
  refine ⟨window, later, early, late, ran, zero, ?_, ran', one, behind.mpr (by decide), ?_⟩
  · exact fun within => absurd (before.mp within) (by decide)
  · exact (single [0, 0] 0 (by decide)).1

end Session

end DelayChain
