import DelayChain.Node.Cycle

/-!
# Racing for a height

While a node searches for a block of its own it takes in blocks of others. The first event to settle
the height wins: a block that stands on the parent and passes the check, or the end of the search.
Blocks that fail change nothing, and a closed channel leaves only the search.
-/

set_option autoImplicit false
set_option relaxedAutoImplicit false

namespace DelayChain

/-- What can happen during a race. -/
inductive RaceEvent where
  | arrival (block : Block)
  | closed
  | searchEnded

/-- The block that settles the height. -/
inductive RaceOutcome where
  | mined (mined : MinedBlock)
  | received (block : Block)
  deriving DecidableEq

/-- The received block that wins, if one does: the first in order of arrival that passes, before the
channel is closed and before the search ends. -/
def received? (passes : Block → Bool) : List RaceEvent → Option Block
  | [] => none
  | .arrival block :: rest => if passes block then some block else received? passes rest
  | .closed :: _ => none
  | .searchEnded :: _ => none

/-- The outcome of a race between a search and the blocks that arrive. -/
def race (rules : Rules) (schedule : Schedule) (parent : Block) (events : List RaceEvent)
    (search : Unit → Except Failure MinedBlock) : Except Failure RaceOutcome :=
  match received? (fun block => (rules.checkOn schedule parent block).isOk) events with
  | some block => .ok (.received block)
  | none => (search ()).map .mined

namespace Node

/-- Proposes while taking in blocks for the same height. -/
def proposeRacing (node : Node) (now : Int64) (parent : Block) (requests : List Request)
    (events : List RaceEvent) : Except Failure RaceOutcome × Node :=
  let node := node.beginCycle
  let outcome := race node.rules node.schedule parent events fun _ =>
    (node.mineChild now parent requests).mapError .proposal
  match outcome with
  | .ok (.mined mined) => (.ok (.mined mined), node.noteMined mined)
  | .ok (.received block) => (.ok (.received block), { node with phase := .accepted })
  | .error failure => (.error failure, { node with phase := .idle })

end Node

end DelayChain
