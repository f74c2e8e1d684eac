import DelayChain.Proofs.Production
import DelayChain.Proofs.Settled

/-!
# The shape of a schedule over a run

A node with a schedule of its own enters a difficulty at most once for every full window of accepted
blocks, from the height behind the window on. Each entry differs from the one before by one; it is
positive, and stays at or below the cap unless it is a fall.
-/

set_option autoImplicit false
set_option relaxedAutoImplicit false

namespace DelayChain

namespace Difficulty.Adjuster

variable {adjuster : Adjuster} {current next : UInt32}

/-- A change of the difficulty by one, to a positive one, and where it rises, to the cap at most. -/
structure Changes (adjuster : Adjuster) (current next : UInt32) : Prop where
  by_one : next.toNat = current.toNat + 1 ∨ next.toNat + 1 = current.toNat
  positive : 1 ≤ next.toNat
  capped : next ≤ adjuster.cap ∨ next.toNat + 1 = current.toNat

theorem toNat_max_one (current : UInt32) : (max current 1).toNat = max current.toNat 1 := by
  have greatest : max current 1 = if current ≤ 1 then 1 else current := rfl
  rw [greatest]
  simp only [UInt32.le_iff_toNat_le, UInt32.toNat_one]
  split
  · next low => rw [Nat.max_eq_right low]; rfl
  · next high => rw [Nat.max_eq_left (Nat.le_of_lt (Nat.not_le.mp high))]

theorem cap_of_positive (window : Nat) (seconds : Int) (cap : UInt32) :
    1 ≤ (of window seconds cap).cap.toNat :=
  (Nat.le_max_right _ _).trans_eq (toNat_max_one cap).symm

theorem toNat_step (adjuster : Adjuster) (factor : Binary64) (current : UInt32) :
    (adjuster.step factor current).toNat =
      if Binary64.Less Binary64.one factor then
        if current.toNat < adjuster.cap.toNat then current.toNat + 1 else current.toNat
      else if Binary64.Less factor Binary64.one then current.toNat - 1
      else current.toNat := by
  unfold step
  split
  · simp only [UInt32.le_iff_toNat_le]
    split
    · next capped => rw [if_neg (Nat.not_lt.mpr capped)]
    · next room =>
      have bound := adjuster.cap.toNat_lt
      rw [if_pos (Nat.not_le.mp room), UInt32.toNat_add, UInt32.toNat_one, Nat.mod_eq_of_lt (by omega)]
  · split
    · split
      · next zero => rw [zero]; rfl
      · next nonzero =>
        have positive : current.toNat ≠ 0 := fun zero => nonzero (UInt32.toNat.inj zero)
        have least : (1 : UInt32) ≤ current := by
          rw [UInt32.le_iff_toNat_le, UInt32.toNat_one]
          omega
        rw [UInt32.toNat_sub_of_le _ _ least, UInt32.toNat_one]
    · rfl

private theorem step_cases (adjuster : Adjuster) (factor : Binary64) (current : UInt32) :
    adjuster.step factor current = current ∨
      ((adjuster.step factor current).toNat = current.toNat + 1 ∧
        adjuster.step factor current ≤ adjuster.cap) ∨
      (adjuster.step factor current).toNat + 1 = current.toNat := by
  have moved := adjuster.toNat_step factor current
  rw [← UInt32.toNat_inj, UInt32.le_iff_toNat_le]
  split_ifs at moved <;> omega

theorem retarget_eq_or_changes (positive : 1 ≤ adjuster.cap.toNat) (times : List Int64)
    (current : UInt32) :
    adjuster.retarget times current = current ∨
      adjuster.Changes current (adjuster.retarget times current) := by
  unfold retarget
  cases adjuster.factor? times with
  | none => exact .inl rfl
  | some factor =>
    have raised : max (adjuster.step factor current) 1 =
        if adjuster.step factor current ≤ 1 then 1 else adjuster.step factor current := rfl
    have moved := adjuster.step_cases factor current
    dsimp only
    rw [raised]
    generalize adjuster.step factor current = next at moved ⊢
    split
    · -- what is raised to one was one before, or it was zero or two and changes
      next low =>
      rw [UInt32.le_iff_toNat_le, UInt32.toNat_one] at low
      by_cases same : current.toNat = 1
      · exact .inl (UInt32.toNat.inj same.symm)
      · have one : 1 = current.toNat + 1 ∨ 1 + 1 = current.toNat := by
          rcases moved with rfl | ⟨rise, -⟩ | fall <;> omega
        exact .inr ⟨one, Nat.le_refl 1, .inl (UInt32.le_iff_toNat_le.mpr positive)⟩
    · next high =>
      rw [UInt32.le_iff_toNat_le, UInt32.toNat_one] at high
      rcases moved with same | ⟨rise, capped⟩ | fall
      · exact .inl same
      · exact .inr ⟨.inl rise, by omega, .inl capped⟩
      · exact .inr ⟨.inr fall, by omega, .inr fall⟩

/-- One entry of a schedule behind another: it stands behind a number of full windows, and changes the
difficulty as the adjuster does. -/
structure Succeeds (adjuster : Adjuster) (earlier later : UInt64 × UInt32) : Prop where
  height : ∃ windows, 1 ≤ windows ∧ later.1.toNat = windows * adjuster.window + 1
  changes : adjuster.Changes earlier.2 later.2

end Difficulty.Adjuster

namespace Session

variable {adjuster : Difficulty.Adjuster} {initial : UInt32}

/-- What holds of every state of a node with a schedule of its own: heights count the accepted blocks,
and the entries follow one another by the windows and steps of the adjuster. -/
structure Shaped (adjuster : Difficulty.Adjuster) (initial : UInt32) (session : Session) : Prop where
  adjusts : session.node.adjuster = adjuster
  paced : session.Paced
  counted : session.chain.height.toNat = session.chain.accepted.length
  begins : session.node.schedule.initial = initial
  entries : session.node.schedule.entries.IsChain adjuster.Succeeds

theorem shaped_start (rules : Rules) (adjuster : Difficulty.Adjuster) (maxRequests : Nat)
    (initial : UInt32) :
    Shaped adjuster initial
      (start (.start rules adjuster maxRequests (.constant initial)) Block.genesis) where
  adjusts := rfl
  paced := paced_start rfl Block.genesis
  counted := rfl
  begins := rfl
  entries := .singleton (0, initial)

namespace Shaped

variable {node node' : Node} {chain : Chain} {block : Block}

theorem of_agrees (shaped : Shaped adjuster initial ⟨node, chain⟩) (agrees : node.Agrees node') :
    Shaped adjuster initial ⟨node', chain⟩ where
  adjusts := agrees.adjuster.trans shaped.adjusts
  paced := shaped.paced.of_agrees agrees
  counted := shaped.counted
  begins := (congrArg Schedule.initial agrees.schedule).trans shaped.begins
  entries := by
    change node'.schedule.entries.IsChain _
    rw [agrees.schedule]
    exact shaped.entries

private theorem height_of_checkOn (shaped : Shaped adjuster initial ⟨node, chain⟩)
    (timely : ¬node.AcceptanceOverflows chain block)
    (passed : node.rules.checkOn node.schedule chain.tip block = .ok ()) :
    block.height.toNat = (chain.push block).accepted.length := by
  have counted : chain.tip.height.toNat = chain.accepted.length := shaped.counted
  rw [Rules.height_of_checkOn passed, toNat_height_succ (Node.tip_ne_greatest timely), counted,
    Chain.length_push]

/-- The difficulty at a block that joins is that of the newest entry, which stands at the block or
below. -/
theorem currentDifficulty_push (shaped : Shaped adjuster initial ⟨node, chain⟩)
    (timely : ¬node.AcceptanceOverflows chain block)
    (passed : node.rules.checkOn node.schedule chain.tip block = .ok ()) :
    node.currentDifficulty (chain.push block) = node.schedule.latest.2 := by
  have counts := shaped.height_of_checkOn timely passed
  have paced : node.schedule.latest.1.toNat ≤ chain.height.toNat + 1 := shaped.paced
  have counted : chain.height.toNat = chain.accepted.length := shaped.counted
  rw [Node.currentDifficulty, Chain.height_push]
  refine Schedule.difficultyAt_of_latest_le ?_
  rw [UInt64.le_iff_toNat_le, counts, Chain.length_push]
  omega

private theorem succeeds (shaped : Shaped adjuster initial ⟨node, chain⟩)
    (positive : 1 ≤ adjuster.cap.toNat) (timely : ¬node.AcceptanceOverflows chain block)
    (passed : node.rules.checkOn node.schedule chain.tip block = .ok ())
    (change : node.Retargets (chain.push block)) :
    adjuster.Succeeds node.schedule.latest
      (block.height + 1, node.nextDifficulty (chain.push block)) := by
  have counts := shaped.height_of_checkOn timely passed
  obtain ⟨⟨nonempty, full⟩, differ⟩ := change
  have adjusts : node.adjuster = adjuster := shaped.adjusts
  have current := shaped.currentDifficulty_push timely passed
  constructor
  · have small := Node.height_ne_greatest timely passed ⟨⟨nonempty, full⟩, differ⟩
    obtain ⟨windows, product⟩ := Nat.dvd_of_mod_eq_zero full
    refine ⟨windows, ?_, ?_⟩
    · refine Nat.pos_of_ne_zero ?_
      rintro rfl
      exact nonempty (List.length_eq_zero_iff.mp product)
    · rw [toNat_height_succ small, counts, product, adjusts, Nat.mul_comm]
  · have moved := Difficulty.Adjuster.retarget_eq_or_changes positive
      ((chain.push block).accepted.map (·.timestamp)) node.schedule.latest.2
    rw [Node.nextDifficulty, current, adjusts] at differ
    rw [Node.nextDifficulty, current, adjusts]
    exact moved.resolve_left differ

theorem offer (shaped : Shaped adjuster initial ⟨node, chain⟩) (positive : 1 ≤ adjuster.cap.toNat)
    (timely : ¬node.AcceptanceOverflows chain block) :
    Shaped adjuster initial
      ⟨(node.accept chain block).2.1, (node.accept chain block).2.2⟩ := by
  have paced := shaped.paced.offer timely
  have welcome := shaped.paced.accept timely
  have offered := node.offer_accept chain block
  generalize node.accept chain block = result at paced welcome offered ⊢
  cases offered with
  | refused reason fault => exact shaped.of_agrees ⟨rfl, rfl, rfl, rfl⟩
  | joined passed steady =>
    have counted := shaped.height_of_checkOn timely passed
    exact ⟨shaped.adjusts, paced, (congrArg _ Chain.height_push).trans counted, shaped.begins,
      shaped.entries⟩
  | retargeted passed change schedule made =>
    have counted := shaped.height_of_checkOn timely passed
    have begins : schedule.initial = node.schedule.initial := by
      obtain ⟨-, rfl⟩ := Schedule.record_eq_ok_iff.mp made
      rfl
    refine ⟨shaped.adjusts, paced, (congrArg _ Chain.height_push).trans counted,
      begins.trans shaped.begins, ?_⟩
    change schedule.entries.IsChain adjuster.Succeeds
    rw [Schedule.entries_of_record_eq_ok made]
    refine shaped.entries.append (.singleton _) ?_
    intro last isLast first isFirst
    rw [Schedule.getLast?_entries, Option.mem_some_iff] at isLast
    rw [List.head?_cons, Option.mem_some_iff] at isFirst
    rw [← isLast, ← isFirst]
    exact shaped.succeeds positive timely passed change
  | stuck passed change error refusal => exact nomatch (welcome passed).1

private theorem run {session last : Session} (shaped : Shaped adjuster initial session)
    (positive : 1 ≤ adjuster.cap.toNat) {operations : List Operation}
    (ran : session.run? operations = some last) : Shaped adjuster initial last :=
  holds_of_run? of_agrees (fun shaped timely => shaped.offer positive timely) shaped ran

end Shaped

/-- A node with a constant schedule of its own, on a new chain: in every state that it comes to, a block
that is offered joins, or it is refused and nothing changes but the phase; only the heights can leave
no room for it. Behind its initial entry the schedule has one entry for some of the full windows, each
at the height behind the window and one away from the entry before, positive, and at the cap at most
unless it is a fall. Window and cap are those that the adjuster takes: two blocks and one at least. -/
theorem schedule_shape (rules : Rules) (window : Nat) (seconds : Int) (cap : UInt32)
    (maxRequests : Nat) (initial : UInt32) {operations : List Operation} {session : Session}
    (ran : (start (.start rules (.of window seconds cap) maxRequests (.constant initial))
      Block.genesis).run? operations = some session) :
    (∀ block, session.chain.accepted.length + 2 < 2 ^ 64 →
      ¬session.Overflows (.accept block)) ∧
    (∀ block, ¬session.Overflows (.accept block) →
      (session.node.accept session.chain block).1 = .ok () ∨
        ∃ reason, session.node.accept session.chain block =
          (.error (.rejected reason), { session.node with phase := .rejected }, session.chain)) ∧
    session.node.schedule.entries.head? = some (0, initial) ∧
    session.node.schedule.entries.IsChain (Difficulty.Adjuster.of window seconds cap).Succeeds := by
  have shaped := (shaped_start rules (.of window seconds cap) maxRequests initial).run
    (Difficulty.Adjuster.cap_of_positive window seconds cap) ran
  refine ⟨?_, ?_, ?_, shaped.entries⟩
  · intro block room
    refine Node.not_acceptanceOverflows ?_ block
    rw [shaped.counted, toNat_greatestHeight]
    omega
  · intro block timely
    cases verdict : session.node.rules.checkOn session.node.schedule session.chain.tip block with
    | error reason => exact .inr ⟨reason, Node.accept_of_checkOn_eq_error verdict⟩
    | ok => exact .inl (shaped.paced.accept timely verdict).1
  · exact congrArg (fun difficulty => some (0, difficulty)) shaped.begins

/-- Four blocks that fill two windows at once, on a schedule that begins at difficulty zero. -/
theorem schedule_shape_from_zero :
    ∃ operations session,
      (start (.rehearsal (.constant 0)) Block.genesis).run? operations = some session ∧
        session.node.schedule.entries = [(0, 0), (3, 1), (5, 2)] ∧
        session.node.schedule.entries.IsChain (Difficulty.Adjuster.of 2 600 4).Succeeds ∧
        ¬session.Overflows (.accept Block.genesis) ∧
        ∃ reason, session.node.accept session.chain Block.genesis =
          (.error (.rejected reason), { session.node with phase := .rejected }, session.chain) := by
  let node : Node := .rehearsal (.constant 0)
  let maker : Node := .rehearsal (.constant 4)
  let first : Block := (maker.produced? Block.genesis).getD Block.genesis
  let second : Block := (maker.produced? first).getD Block.genesis
  let third : Block := (maker.produced? second).getD Block.genesis
  let fourth : Block := (maker.produced? third).getD Block.genesis
  let operations : List Operation :=
    [.accept first, .accept first, .accept second, .accept third, .accept fourth]
  have ran : ((start node Block.genesis).run? operations).map
      (fun session => (session.chain.accepted.length, session.node.schedule.entries,
        (session.node.accept session.chain Block.genesis).1.isOk)) =
        some (4, [(0, 0), (3, 1), (5, 2)], false) := by decide +kernel
  obtain ⟨session, reached, state⟩ := Option.map_eq_some_iff.mp ran
  obtain ⟨length, rest⟩ := Prod.mk.inj state
  obtain ⟨entries, refused⟩ := Prod.mk.inj rest
  obtain ⟨roomy, judged, -, chained⟩ := schedule_shape node.rules 2 600 4 3 0 reached
  have timely := roomy Block.genesis (by rw [length]; decide)
  refine ⟨operations, session, reached, entries, chained, timely, ?_⟩
  rcases judged Block.genesis timely with welcome | refusal
  · rw [welcome] at refused
    exact absurd refused.symm Bool.false_ne_true
  · exact refusal

end Session

end DelayChain
