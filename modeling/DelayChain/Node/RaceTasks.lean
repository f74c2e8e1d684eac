import DelayChain.Node.Race

/-!
# The tasks of a race

Three parties move in a race, one at a time and in any order: the senders, who put blocks into a channel
and leave; the search; and the race itself, which takes blocks out of the channel and looks whether the
search has ended. What settles the height first ends the race. Only a block that wins calls the search
off, so before that the search ends in its own way.
-/

set_option autoImplicit false
set_option relaxedAutoImplicit false

namespace DelayChain

/-- What a race is held by: the rules and the schedule for the blocks that arrive, the block to stand on,
and how the search ends unless it is called off. -/
structure Race (α : Type) where
  rules : Rules
  schedule : Schedule
  parent : Block
  search : α

inductive Settlement (α : Type) where
  | search (result : α)
  | received (block : Block)

inductive RaceMove (α : Type) where
  /-- A block is put into the channel. -/
  | send (block : Block)
  /-- The last of the senders leaves. -/
  | close
  | endSearch
  /-- A search that is called off ends in any way. -/
  | giveUp (result : α)
  /-- The race looks at the channel. -/
  | receive
  /-- The race looks at the search. -/
  | join

/-- How far a race has come. What is sent when it is settled stays in the channel. -/
structure RaceState (α : Type) where
  /-- The blocks that wait, oldest first. -/
  channel : List Block
  /-- There is a sender left. -/
  sending : Bool
  /-- The race still looks at the channel. -/
  receiving : Bool
  ended : Option α
  cancelled : Bool
  /-- The blocks that were passed over, oldest first, each with its fault. -/
  skipped : List (Block × Rejection)
  settled : Option (Settlement α)

variable {α : Type}

def RaceState.start : RaceState α where
  channel := []
  sending := true
  receiving := true
  ended := none
  cancelled := false
  skipped := []
  settled := none

namespace RaceState

/-- The block that has won, if one has. -/
def won (state : RaceState α) : List Block :=
  match state.settled with
  | some (.received block) => [block]
  | some (.search _) | none => []

/-- What the race has seen, in order. -/
def seen (state : RaceState α) : List RaceEvent :=
  state.skipped.map (fun pair => .arrival pair.1) ++
    (if state.receiving then [] else [.closed]) ++
    match state.settled with
    | some (.received block) => [.arrival block]
    | some (.search _) => [.searchEnded]
    | none => []

end RaceState

/-- The outcome for the one who runs the race. -/
def Settlement.outcome : Settlement (Except Failure MinedBlock) → Except Failure RaceOutcome
  | .search result => result.map .mined
  | .received block => .ok (.received block)

/-- The blocks that are sent, in order. -/
def RaceMove.sent : List (RaceMove α) → List Block
  | [] => []
  | .send block :: rest => block :: sent rest
  | .close :: rest | .endSearch :: rest | .giveUp _ :: rest | .receive :: rest | .join :: rest =>
    sent rest

namespace Race

/-- What becomes of a block that arrives. -/
def verdict (race : Race α) (block : Block) : Except Rejection Unit :=
  race.rules.checkOn race.schedule race.parent block

def passes (race : Race α) (block : Block) : Bool := (race.verdict block).isOk

/-- Takes out the block that waits longest: it wins, or it is passed over. An empty channel that nobody
sends to is not looked at again. -/
def receive? (race : Race α) (state : RaceState α) : Option (RaceState α) :=
  match state.channel with
  | block :: rest =>
    match race.verdict block with
    | .ok () =>
      some { state with channel := rest, cancelled := true, settled := some (.received block) }
    | .error reason =>
      some { state with channel := rest, skipped := state.skipped ++ [(block, reason)] }
  | [] => if state.sending then none else some { state with receiving := false }

/-- The state behind a move, if the move can be made. -/
def move? (race : Race α) (state : RaceState α) : RaceMove α → Option (RaceState α)
  | .send block =>
    if state.sending then some { state with channel := state.channel ++ [block] } else none
  | .close => if state.sending then some { state with sending := false } else none
  | .endSearch =>
    if state.ended.isNone ∧ ¬state.cancelled then some { state with ended := some race.search }
    else none
  | .giveUp result =>
    if state.ended.isNone ∧ state.cancelled then some { state with ended := some result } else none
  | .receive => if state.settled.isNone ∧ state.receiving then race.receive? state else none
  | .join =>
    if state.settled.isNone then
      state.ended.map fun result => { state with settled := some (.search result) }
    else none

def run? (race : Race α) (state : RaceState α) : List (RaceMove α) → Option (RaceState α)
  | [] => some state
  | move :: rest => (race.move? state move).bind fun next => race.run? next rest

end Race

namespace Node

/-- The race of a node for a child of a block. -/
def raceFor (node : Node) (now : Int64) (parent : Block) (requests : List Request) :
    Race (Except Failure MinedBlock) where
  rules := node.rules
  schedule := node.schedule
  parent
  search := (node.mineChild now parent requests).mapError .proposal

end Node

end DelayChain
