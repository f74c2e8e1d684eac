import DelayChain.Node.RaceTasks
import DelayChain.Proofs.FinalizedBlock
import DelayChain.Proofs.Intrusions

/-!
# Races

However the senders, the search and the race take turns, a race is settled by the first of the blocks
sent that stands on the parent and passes the check, or by the search in its own way. Blocks that fail
are passed over, and a channel that is closed leaves the search. The node that ran the race is ready to
finalize the block it has mined, and nothing else.
-/

set_option autoImplicit false
set_option relaxedAutoImplicit false

namespace DelayChain

variable {α : Type}

namespace RaceMove

private theorem sent_append (moves later : List (RaceMove α)) :
    sent (moves ++ later) = sent moves ++ sent later := by
  induction moves with
  | nil => rfl
  | cons move rest ih => cases move <;> simp [sent, ih]

private theorem sent_sends (blocks : List Block) :
    sent (blocks.map (.send : Block → RaceMove α)) = blocks := by
  induction blocks with
  | nil => rfl
  | cons block rest ih => simp [sent, ih]

end RaceMove

namespace Race

variable {race : Race α} {state next last : RaceState α} {arrived : List Block} {block : Block}

private theorem passes_iff : race.passes block = true ↔ race.verdict block = .ok () := by
  unfold passes
  cases race.verdict block with
  | error reason => simp [Except.isOk, Except.toBool]
  | ok => simp [Except.isOk, Except.toBool]

/-- What holds of a race behind some moves. Every block that was sent has been passed over, has won or
waits, in this order; and until a block wins, the search is not called off. -/
structure Fits (race : Race α) (arrived : List Block) (state : RaceState α) : Prop where
  order : arrived = state.skipped.map Prod.fst ++ (state.won ++ state.channel)
  faults : ∀ pair ∈ state.skipped, race.verdict pair.1 = .error pair.2
  passed : ∀ block, state.settled = some (.received block) → race.verdict block = .ok ()
  looking : ∀ block, state.settled = some (.received block) → state.receiving = true
  uncalled : state.settled = none → state.cancelled = false
  own : state.settled = none → ∀ result, state.ended = some result → result = race.search
  joined : ∀ result, state.settled = some (.search result) → result = race.search

private theorem fits_start (race : Race α) : race.Fits [] .start where
  order := rfl
  faults _ member := absurd member List.not_mem_nil
  passed _ settled := nomatch settled
  looking _ settled := nomatch settled
  uncalled _ := rfl
  own _ _ ended := nomatch ended
  joined _ settled := nomatch settled

private theorem receive?_cases (received : race.receive? state = some next) :
    (∃ block rest, state.channel = block :: rest ∧ race.verdict block = .ok () ∧
      next = { state with channel := rest, cancelled := true, settled := some (.received block) }) ∨
    (∃ block rest reason, state.channel = block :: rest ∧ race.verdict block = .error reason ∧
      next = { state with channel := rest, skipped := state.skipped ++ [(block, reason)] }) ∨
    (state.channel = [] ∧ state.sending = false ∧ next = { state with receiving := false }) := by
  unfold receive? at received
  split at received
  · next block rest waits =>
    split at received
    · next passed => exact .inl ⟨block, rest, waits, passed, (Option.some.inj received).symm⟩
    · next reason fault =>
      exact .inr (.inl ⟨block, rest, reason, waits, fault, (Option.some.inj received).symm⟩)
  · next empty =>
    split at received
    · exact nomatch received
    · next left =>
      exact .inr (.inr ⟨empty, Bool.eq_false_iff.mpr left, (Option.some.inj received).symm⟩)

namespace Fits

private theorem receive (fits : race.Fits arrived state) (unsettled : state.settled = none)
    (looks : state.receiving = true) (received : race.receive? state = some next) :
    race.Fits arrived next := by
  have order := fits.order
  rw [RaceState.won, unsettled] at order
  rcases receive?_cases received with
    ⟨block, rest, waits, passed, rfl⟩ | ⟨block, rest, reason, waits, fault, rfl⟩ | ⟨-, -, rfl⟩
  · rw [waits] at order
    refine ⟨order, fits.faults, ?_, ?_, ?_, ?_, ?_⟩
    · intro winner settled
      cases settled
      exact passed
    · intro winner settled
      exact looks
    · intro unsettled'
      exact nomatch unsettled'
    · intro unsettled'
      exact nomatch unsettled'
    · intro result settled
      exact nomatch settled
  · refine { fits with order := ?_, faults := ?_ }
    · show arrived = (state.skipped ++ [(block, reason)]).map Prod.fst ++ (state.won ++ rest)
      rw [order, waits, RaceState.won, unsettled]
      simp
    · intro pair member
      rcases List.mem_append.mp member with earlier | new
      · exact fits.faults pair earlier
      · rw [List.mem_singleton.mp new]
        exact fault
  · refine { fits with looking := ?_ }
    intro block settled
    exact nomatch unsettled.symm.trans settled

private theorem move (fits : race.Fits arrived state) {move : RaceMove α}
    (moved : race.move? state move = some next) : race.Fits (arrived ++ RaceMove.sent [move]) next := by
  cases move with
  | send block =>
    simp only [move?, Option.ite_none_right_eq_some, Option.some.injEq] at moved
    obtain ⟨-, rfl⟩ := moved
    refine { fits with order := ?_ }
    show arrived ++ [block] = state.skipped.map Prod.fst ++ (state.won ++ (state.channel ++ [block]))
    rw [fits.order]
    simp
  | close =>
    simp only [move?, Option.ite_none_right_eq_some, Option.some.injEq] at moved
    obtain ⟨-, rfl⟩ := moved
    rw [RaceMove.sent, RaceMove.sent, List.append_nil]
    exact { fits with }
  | endSearch =>
    simp only [move?, Option.ite_none_right_eq_some, Option.some.injEq] at moved
    obtain ⟨-, rfl⟩ := moved
    rw [RaceMove.sent, RaceMove.sent, List.append_nil]
    refine { fits with own := ?_ }
    intro _ result ended
    exact (Option.some.inj ended).symm
  | giveUp result =>
    simp only [move?, Option.ite_none_right_eq_some, Option.some.injEq] at moved
    obtain ⟨⟨-, cancelled⟩, rfl⟩ := moved
    rw [RaceMove.sent, RaceMove.sent, List.append_nil]
    refine { fits with own := ?_ }
    intro unsettled
    -- a search that is called off belongs to a race that is settled
    exact absurd cancelled (by rw [fits.uncalled unsettled]; exact Bool.false_ne_true)
  | receive =>
    simp only [move?, Option.ite_none_right_eq_some] at moved
    obtain ⟨⟨unsettled, looks⟩, moved⟩ := moved
    rw [RaceMove.sent, RaceMove.sent, List.append_nil]
    exact fits.receive (Option.isNone_iff_eq_none.mp unsettled) looks moved
  | join =>
    simp only [move?, Option.ite_none_right_eq_some, Option.map_eq_some_iff] at moved
    obtain ⟨unsettled, result, ended, rfl⟩ := moved
    have unsettled := Option.isNone_iff_eq_none.mp unsettled
    have order := fits.order
    rw [RaceState.won, unsettled] at order
    rw [RaceMove.sent, RaceMove.sent, List.append_nil]
    refine ⟨order, fits.faults, ?_, ?_, ?_, ?_, ?_⟩
    · intro block settled
      exact nomatch settled
    · intro block settled
      exact nomatch settled
    · intro settled
      exact nomatch settled
    · intro settled
      exact nomatch settled
    · intro found settled
      cases settled
      exact fits.own unsettled result ended

private theorem run (fits : race.Fits arrived state) {moves : List (RaceMove α)}
    (ran : race.run? state moves = some last) : race.Fits (arrived ++ RaceMove.sent moves) last := by
  induction moves generalizing state arrived with
  | nil =>
    cases ran
    rw [RaceMove.sent, List.append_nil]
    exact fits
  | cons move rest ih =>
    obtain ⟨next, moved, ran⟩ := Option.bind_eq_some_iff.mp ran
    have behind := ih (fits.move moved) ran
    rw [List.append_assoc, ← RaceMove.sent_append] at behind
    exact behind

private theorem fails (fits : race.Fits arrived state) :
    ∀ block ∈ state.skipped.map Prod.fst, race.passes block = false := by
  intro block member
  obtain ⟨pair, skipped, rfl⟩ := List.mem_map.mp member
  rw [passes, fits.faults pair skipped]
  rfl

private theorem settlement_cases (fits : race.Fits arrived state) {settlement : Settlement α}
    (settled : state.settled = some settlement) :
    settlement = .search race.search ∨
      ∃ block, settlement = .received block ∧ arrived.find? race.passes = some block := by
  cases settlement with
  | search result =>
    left
    rw [fits.joined result settled]
  | received block =>
    right
    have passes := passes_iff.mpr (fits.passed block settled)
    refine ⟨block, rfl, ?_⟩
    rw [fits.order, RaceState.won, settled, List.find?_append,
      List.find?_eq_none.mpr fun block member => Bool.eq_false_iff.mp (fits.fails block member)]
    simp [passes]

private theorem exists_join (fits : race.Fits arrived state) (unsettled : state.settled = none) :
    ∃ moves last, RaceMove.sent moves = [] ∧ race.run? state moves = some last ∧
      last.settled = some (.search race.search) := by
  let settlement : Settlement α := .search race.search
  cases ended : state.ended with
  | none =>
    refine ⟨[.endSearch, .join],
      { state with ended := some race.search, settled := some settlement }, rfl, ?_, rfl⟩
    simp [run?, move?, ended, unsettled, fits.uncalled unsettled, settlement]
  | some result =>
    refine ⟨[.join], { state with settled := some settlement }, rfl, ?_, rfl⟩
    simp [run?, move?, ended, unsettled, fits.own unsettled result ended, settlement]

end Fits

/-- Blocks can be sent in the given order, and then the race comes to the settlement. -/
def Reaches (race : Race α) (arrived : List Block) (settlement : Settlement α) : Prop :=
  ∃ moves last, race.run? .start moves = some last ∧ RaceMove.sent moves = arrived ∧
    last.settled = some settlement

private theorem run?_append (moves later : List (RaceMove α)) :
    race.run? state (moves ++ later) =
      (race.run? state moves).bind fun next => race.run? next later := by
  induction moves generalizing state with
  | nil => rfl
  | cons move rest ih =>
    rw [List.cons_append, run?, run?]
    cases race.move? state move with
    | none => rfl
    | some next => exact ih

private theorem run?_sends (sends : state.sending = true) (blocks : List Block) :
    race.run? state (blocks.map .send) =
      some { state with channel := state.channel ++ blocks } := by
  induction blocks generalizing state with
  | nil => simp [run?]
  | cons block rest ih =>
    let next : RaceState α := { state with channel := state.channel ++ [block] }
    have sends' : next.sending = true := sends
    have moved : race.move? state (.send block) = some next := if_pos sends
    rw [List.map_cons, run?, moved, Option.bind_some, ih sends']
    simp [next]

private theorem exists_receives {front back : List Block} (unsettled : state.settled = none)
    (looks : state.receiving = true) (waits : state.channel = front ++ block :: back)
    (fail : ∀ earlier ∈ front, race.passes earlier = false) (passes : race.passes block = true) :
    ∃ moves last, RaceMove.sent moves = [] ∧ race.run? state moves = some last ∧
      last.settled = some (.received block) := by
  induction front generalizing state with
  | nil =>
    have verdict := passes_iff.mp passes
    let last : RaceState α :=
      { state with channel := back, cancelled := true, settled := some (.received block) }
    refine ⟨[.receive], last, rfl, ?_, rfl⟩
    simp [run?, move?, receive?, unsettled, looks, waits, verdict, last]
  | cons first front ih =>
    obtain ⟨reason, fault⟩ : ∃ reason, race.verdict first = .error reason := by
      have failing := fail first List.mem_cons_self
      cases verdict : race.verdict first with
      | error reason => exact ⟨reason, rfl⟩
      | ok =>
        rw [passes_iff.mpr verdict] at failing
        exact nomatch failing
    let next : RaceState α :=
      { state with channel := front ++ block :: back, skipped := state.skipped ++ [(first, reason)] }
    have moved : race.move? state .receive = some next := by
      simp [move?, receive?, unsettled, looks, waits, fault, next]
    have unsettled' : next.settled = none := unsettled
    obtain ⟨moves, last, silent, ran, settled⟩ := ih unsettled' looks rfl
      fun earlier member => fail earlier (List.mem_cons_of_mem first member)
    refine ⟨.receive :: moves, last, silent, ?_, settled⟩
    rw [run?, moved]
    exact ran

/-- The settlements that a race can come to: that of its search, and the first block that passes. -/
private theorem reaches_iff {settlement : Settlement α} :
    race.Reaches arrived settlement ↔
      settlement = .search race.search ∨
        ∃ block, settlement = .received block ∧ arrived.find? race.passes = some block := by
  constructor
  · rintro ⟨moves, last, ran, rfl, settled⟩
    exact (race.fits_start.run ran).settlement_cases settled
  · intro settles
    let waiting : RaceState α := { RaceState.start with channel := arrived }
    have sent : race.run? .start (arrived.map .send) = some waiting := run?_sends rfl arrived
    have behind : ∀ moves last, RaceMove.sent moves = [] → race.run? waiting moves = some last →
        last.settled = some settlement → race.Reaches arrived settlement := by
      intro moves last silent ran settled
      refine ⟨arrived.map .send ++ moves, last, ?_, ?_, settled⟩
      · rw [run?_append, sent]
        exact ran
      · rw [RaceMove.sent_append, RaceMove.sent_sends, silent, List.append_nil]
    have unsettled : waiting.settled = none := rfl
    rcases settles with rfl | ⟨block, rfl, found⟩
    · obtain ⟨moves, last, silent, ran, settled⟩ := (race.fits_start.run sent).exists_join unsettled
      exact behind moves last silent ran settled
    · obtain ⟨passes, front, back, split, fail⟩ := List.find?_eq_some_iff_append.mp found
      obtain ⟨moves, last, silent, ran, settled⟩ := exists_receives unsettled rfl split
        (fun earlier member => by simpa using fail earlier member) passes
      exact behind moves last silent ran settled

private theorem reaches_filter {settlement : Settlement α} :
    race.Reaches (arrived.filter race.passes) settlement ↔ race.Reaches arrived settlement := by
  rw [reaches_iff, reaches_iff, List.find?_filter]
  simp

end Race

section Outcome

variable {race : Race (Except Failure MinedBlock)} {state : RaceState (Except Failure MinedBlock)}
  {arrived : List Block} {settlement : Settlement (Except Failure MinedBlock)}

private theorem received?_append_of_failing {passes : Block → Bool} {blocks : List Block}
    (fail : ∀ block ∈ blocks, passes block = false) (events : List RaceEvent) :
    received? passes (blocks.map .arrival ++ events) = received? passes events := by
  induction blocks with
  | nil => rfl
  | cons block rest ih =>
    obtain ⟨first, later⟩ := List.forall_mem_cons.mp fail
    rw [List.map_cons, List.cons_append, received?, first, if_neg Bool.false_ne_true, ih later]

private theorem Race.Fits.race_seen (fits : race.Fits arrived state)
    (settled : state.settled = some settlement) :
    DelayChain.race race.rules race.schedule race.parent state.seen (fun _ => race.search) =
      settlement.outcome := by
  have skips : state.skipped.map (fun pair => RaceEvent.arrival pair.1) =
      (state.skipped.map Prod.fst).map .arrival := by
    rw [List.map_map]
    rfl
  have passing : (fun block => (race.rules.checkOn race.schedule race.parent block).isOk) =
      race.passes := rfl
  rw [DelayChain.race, passing, RaceState.seen, skips, List.append_assoc,
    received?_append_of_failing fits.fails, settled]
  cases settlement with
  | search result =>
    rw [fits.joined result settled]
    cases state.receiving with
    | true => rfl
    | false => rfl
  | received block =>
    have passes := Race.passes_iff.mpr (fits.passed block settled)
    rw [fits.looking block settled]
    simp [received?, passes, Settlement.outcome]

end Outcome

namespace Node

private theorem fst_proposeRacing (node : Node) (now : Int64) (parent : Block) (requests : List Request)
    (events : List RaceEvent) :
    (node.proposeRacing now parent requests events).1 =
      race node.rules node.schedule parent events
        fun _ => (node.mineChild now parent requests).mapError .proposal := by
  unfold proposeRacing
  dsimp only
  split
  · next raced => exact raced.symm
  · next raced => exact raced.symm
  · next raced => exact raced.symm

end Node

namespace Call

def Races : Call → Prop
  | .race _ _ _ _ | .brokenRace => True
  | .propose _ _ _ | .finalize _ _ | .check _ | .validate _ | .produce _ _ _ _ | .accept _ _
  | .retarget _ | .audit _ => False

/-- The call leaves alone a proposal that waits with the given work hash. -/
def LetsWait (workHash : String) : Call → Prop
  | .finalize _ mined => mined.workHash ≠ workHash
  | .retarget _ | .audit _ => True
  | .propose _ _ _ | .race _ _ _ _ | .brokenRace | .check _ | .validate _ | .produce _ _ _ _
  | .accept _ _ => False

end Call

namespace Node

variable {node : Node} {now : Int64} {mined : MinedBlock} {call : Call} {calls : List Call}
  {workHash : String}

/-- A proposal with the given work hash waits to be finalized. -/
def Waits (node : Node) (workHash : String) : Prop :=
  node.phase = .powDone ∧ node.proposed = some workHash

private theorem Waits.answer (waits : node.Waits workHash) (lets : call.LetsWait workHash) :
    (node.answer call).2.Waits workHash := by
  cases call with
  | finalize now mined =>
    have finalization := node.finalization_finalize now mined
    show (node.finalize now mined).2.Waits workHash
    generalize node.finalize now mined = result at finalization ⊢
    have other : workHash ≠ mined.workHash := fun same => lets same.symm
    cases finalization with
    | early closed => exact absurd waits.1 closed
    | foreign ready foreign => exact waits
    | done ready own | unproven ready own =>
      exact absurd (Option.some.inj (waits.2.symm.trans own)) other
  | retarget chain =>
    show (node.retarget chain).2.Waits workHash
    rw [node.snd_retarget chain]
    exact waits
  | audit chain => exact waits
  | propose | race | brokenRace | check | validate | produce | accept => exact absurd lets id

private theorem Waits.answers (waits : node.Waits workHash)
    (lets : ∀ call ∈ calls, call.LetsWait workHash) :
    (node.answers calls).2.Waits workHash := by
  induction calls generalizing node with
  | nil => exact waits
  | cons call rest ih =>
    obtain ⟨first, later⟩ := List.forall_mem_cons.mp lets
    exact ih (waits.answer first) later

private theorem Waits.finalize (waits : node.Waits mined.workHash) (now : Int64) :
    (∃ block, (node.finalize now mined).1 = .ok block) ∨
      ∃ error, (node.finalize now mined).1 = .error (.proving error) := by
  have finalization := node.finalization_finalize now mined
  generalize node.finalize now mined = result at finalization ⊢
  cases finalization with
  | early closed => exact absurd waits.1 closed
  | foreign ready other => exact absurd waits.2 other
  | done ready own block => exact .inl ⟨block, rfl⟩
  | unproven ready own error => exact .inr ⟨error, rfl⟩

private theorem phase_answer_ne (idle : node.phase ≠ .powDone)
    (quiet : ¬(node.answer call).1.Proposes) :
    (node.answer call).2.phase ≠ .powDone := by
  have turned := node.turn_answer call
  generalize node.answer call = result at turned quiet ⊢
  cases turned with
  | mined answer node' mined proposal => exact absurd (Answer.proposes_of_proposal proposal) quiet
  | closed answer node' unmined phase =>
    intro ready
    rw [ready] at phase
    exact nomatch phase
  | kept answer node' unmined quiet phase =>
    rw [phase]
    exact idle

private theorem phase_answers_ne (idle : node.phase ≠ .powDone)
    (quiet : ∀ answer ∈ (node.answers calls).1, ¬answer.Proposes) :
    (node.answers calls).2.phase ≠ .powDone := by
  induction calls generalizing node with
  | nil => exact idle
  | cons call rest ih =>
    obtain ⟨first, later⟩ := List.forall_mem_cons.mp quiet
    exact ih (phase_answer_ne idle first) later

private theorem waits_of_proposal (proposal : (node.answer call).1.proposal? = some mined) :
    (node.answer call).2.Waits mined.workHash := by
  have turned := node.turn_answer call
  generalize node.answer call = result at turned proposal ⊢
  cases turned with
  | mined answer node' found foundIn computed phase waits =>
    obtain rfl := Option.some.inj (foundIn.symm.trans proposal)
    exact ⟨phase, waits⟩
  | closed answer node' unmined => exact nomatch unmined.symm.trans proposal
  | kept answer node' unmined => exact nomatch unmined.symm.trans proposal

private theorem phase_ne_of_unmined (proposes : (node.answer call).1.Proposes)
    (unmined : (node.answer call).1.proposal? = none) : (node.answer call).2.phase ≠ .powDone := by
  have turned := node.turn_answer call
  generalize node.answer call = result at turned proposes unmined ⊢
  cases turned with
  | mined answer node' found foundIn => exact nomatch foundIn.symm.trans unmined
  | closed answer node' unmined' phase =>
    intro ready
    rw [ready] at phase
    exact nomatch phase
  | kept answer node' unmined' quiet => exact absurd proposes quiet.1

private theorem proposes_of_races (races : call.Races) : (node.answer call).1.Proposes := by
  cases call with
  | race | brokenRace => trivial
  | propose | finalize | check | validate | produce | accept | retarget | audit =>
    exact absurd races id

end Node

/-- In whatever order the parties move, a race is settled by its search or by the first of the blocks
sent that passes; until then its search can settle it, and blocks that fail change nothing. What settles
the race of a node is the outcome it gives for what it has seen. A block it has mined is finalized by the
next finalization, or its delay is not proved; behind any other outcome no block is finalized before the
next cycle. -/
theorem race_safety :
    (∀ (α : Type) (race : Race α) (moves : List (RaceMove α)) (state : RaceState α),
      race.run? .start moves = some state →
        (∀ settlement, state.settled = some settlement →
          settlement = .search race.search ∨
            ∃ block, settlement = .received block ∧
              (RaceMove.sent moves).find? race.passes = some block) ∧
        (state.settled = none →
          ∃ later last, RaceMove.sent later = [] ∧ race.run? state later = some last ∧
            last.settled = some (.search race.search))) ∧
    (∀ (α : Type) (race : Race α) (arrived : List Block) (settlement : Settlement α),
      race.Reaches (arrived.filter race.passes) settlement ↔ race.Reaches arrived settlement) ∧
    ∀ node : Node,
      (∀ now parent requests moves state settlement,
        (node.raceFor now parent requests).run? .start moves = some state →
          state.settled = some settlement →
            (node.proposeRacing now parent requests state.seen).1 = settlement.outcome) ∧
      ∀ call, call.Races →
        (∀ mined, (node.answer call).1.proposal? = some mined →
          ∀ calls, (∀ other ∈ calls, other.LetsWait mined.workHash) → ∀ now,
            let behind := ((node.answer call).2.answers calls).2
            (∃ block, (behind.finalize now mined).1 = .ok block) ∨
              ∃ error, (behind.finalize now mined).1 = .error (.proving error)) ∧
        ((node.answer call).1.proposal? = none →
          ∀ calls, (∀ answer ∈ ((node.answer call).2.answers calls).1, ¬answer.Proposes) →
            ∀ now mined,
              let behind := ((node.answer call).2.answers calls).2
              behind.finalize now mined =
                (.error (.wrongPhase .powDone behind.phase), behind)) := by
  refine ⟨?_, ?_, ?_⟩
  · intro α race moves state ran
    have fits : race.Fits (RaceMove.sent moves) state := race.fits_start.run ran
    exact ⟨fun _ settled => fits.settlement_cases settled, fits.exists_join⟩
  · intro α race arrived settlement
    exact Race.reaches_filter
  · intro node
    constructor
    · intro now parent requests moves state settlement ran settled
      rw [Node.fst_proposeRacing]
      exact ((Race.fits_start _).run ran).race_seen settled
    · intro call races
      constructor
      · intro mined proposal calls lets now behind
        exact ((Node.waits_of_proposal proposal).answers lets).finalize now
      · intro unmined calls quiet now mined behind
        have closed := Node.phase_ne_of_unmined (Node.proposes_of_races races) unmined
        exact Node.finalize_of_phase_ne (Node.phase_answers_ne closed quiet) now mined

private theorem Race.run?_of_second_passes {race : Race α} {first second : Block} {reason : Rejection}
    (fault : race.verdict first = .error reason) (passed : race.verdict second = .ok ()) :
    race.run? .start [.send first, .send second, .receive, .receive] =
      some ⟨[], true, true, none, true, [(first, reason)], some (.received second)⟩ := by
  simp [run?, move?, receive?, RaceState.start, fault, passed]

/-- A race passes over the genesis block and is won by the block behind it, and then nothing can be
finalized. A block that is mined where nothing arrives can be. -/
theorem race_safety_past_failing_block :
    ∃ (node : Node) (block : Block) (mined : MinedBlock) (won : RaceState (Except Failure MinedBlock)),
      let race := node.raceFor 0 Block.genesis []
      let received := (node.answer (.race 0 Block.genesis [] won.seen)).2
      let alone := node.answer (.race 0 Block.genesis [] [.searchEnded])
      race.run? .start [.send Block.genesis, .send block, .receive, .receive] = some won ∧
        won.settled = some (.received block) ∧
        [Block.genesis, block].find? race.passes = some block ∧
        (node.proposeRacing 0 Block.genesis [] won.seen).1 = .ok (.received block) ∧
        received.finalize 0 mined = (.error (.wrongPhase .powDone received.phase), received) ∧
        alone.1.proposal? = some mined ∧
        ((∃ final, (alone.2.finalize 0 mined).1 = .ok final) ∨
          ∃ error, (alone.2.finalize 0 mined).1 = .error (.proving error)) := by
  -- node and block are kept as variables, so that nothing below is found by running them again
  obtain ⟨node, block, fault, passes, mines⟩ : ∃ (node : Node) (block : Block),
      (node.raceFor 0 Block.genesis []).verdict Block.genesis = .error (.wrongHeight 0 0) ∧
      (node.raceFor 0 Block.genesis []).passes block = true ∧
      (node.answer (.race 0 Block.genesis [] [.searchEnded])).1.proposal?.isSome = true := by
    let node : Node := .rehearsal (.constant 1)
    refine ⟨node, (node.produced? Block.genesis).getD Block.genesis, ?_⟩
    decide +kernel
  have ran := Race.run?_of_second_passes fault (Race.passes_iff.mp passes)
  obtain ⟨settles, -, behind⟩ := race_safety
  obtain ⟨seen, proposals⟩ := behind node
  have found : [Block.genesis, block].find? (node.raceFor 0 Block.genesis []).passes = some block := by
    rcases (settles _ _ _ _ ran).1 _ rfl with own | ⟨winner, same, found⟩
    · exact nomatch own
    · cases same
      exact found
  have outcome := seen 0 Block.genesis [] _ _ _ ran rfl
  have unmined := congrArg (fun result => (Answer.raced result).proposal?) outcome
  obtain ⟨mined, proposal⟩ := Option.isSome_iff_exists.mp mines
  refine ⟨node, block, mined, _, ran, rfl, found, outcome, ?_, proposal, ?_⟩
  · exact (proposals (.race 0 Block.genesis [] _) trivial).2 unmined []
      (fun _ member => absurd member List.not_mem_nil) 0 mined
  · exact (proposals (.race 0 Block.genesis [] [.searchEnded]) trivial).1 mined proposal []
      (fun _ member => absurd member List.not_mem_nil) 0

end DelayChain
