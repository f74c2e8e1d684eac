import DelayChain.Node.Race

/-!
# Calls to a node

A node answers one call after another, each on any blocks and on any chain. A sum that leaves the words
of heights is taken round, so that every call has an answer; where a process ends at such a sum, it
answers no more calls.
-/

set_option autoImplicit false
set_option relaxedAutoImplicit false

namespace DelayChain

/-- What a node can be asked. -/
inductive Call where
  | propose (now : Int64) (parent : Block) (requests : List Request)
  | race (now : Int64) (parent : Block) (requests : List Request) (events : List RaceEvent)
  /-- A race whose search breaks down on the machine before anything settles the height. -/
  | brokenRace
  | finalize (now : Int64) (mined : MinedBlock)
  | check (block : Block)
  | validate (block : Block)
  | produce (now later : Int64) (parent : Block) (requests : List Request)
  | accept (chain : Chain) (block : Block)
  | retarget (chain : Chain)
  | audit (chain : Chain)

/-- What a node answers. -/
inductive Answer where
  | proposed (result : Except Failure MinedBlock)
  | raced (result : Except Failure RaceOutcome)
  | raceBroken
  | finalized (result : Except Failure Block)
  | checked (verdict : Except Rejection Unit)
  | validated (passes : Bool)
  | produced (result : Except Failure Block)
  | accepted (result : Except Failure Unit) (chain : Chain)
  | retargeted (result : Except Failure (Option UInt32))
  | audited (result : Except Failure Unit)

namespace Answer

/-- The block that a proposal or a race has mined. -/
def proposal? : Answer → Option MinedBlock
  | .proposed (.ok mined) => some mined
  | .raced (.ok (.mined mined)) => some mined
  | _ => none

/-- The call began a new cycle. -/
def Proposes : Answer → Prop
  | .proposed _ | .raced _ | .raceBroken | .produced _ => True
  | _ => False

/-- The call gave a finalized block. -/
def Finalizes : Answer → Prop
  | .finalized (.ok _) | .produced (.ok _) => True
  | _ => False

end Answer

namespace Node

/-- The answer to a call, and the node behind it. -/
def answer (node : Node) : Call → Answer × Node
  | .propose now parent requests =>
    let (result, node) := node.propose now parent requests
    (.proposed result, node)
  | .race now parent requests events =>
    let (result, node) := node.proposeRacing now parent requests events
    (.raced result, node)
  | .brokenRace => (.raceBroken, { node.beginCycle with phase := .idle })
  | .finalize now mined =>
    let (result, node) := node.finalize now mined
    (.finalized result, node)
  | .check block =>
    let (verdict, node) := node.check block
    (.checked verdict, node)
  | .validate block =>
    let (passes, node) := node.validate block
    (.validated passes, node)
  | .produce now later parent requests =>
    let (result, node) := node.produce now later parent requests
    (.produced result, node)
  | .accept chain block =>
    let (result, node, chain) := node.accept chain block
    (.accepted result chain, node)
  | .retarget chain =>
    let (result, node) := node.retarget chain
    (.retargeted result, node)
  | .audit chain => (.audited (node.audit chain), node)

/-- The answers to some calls, in order, and the node behind them. -/
def answers (node : Node) : List Call → List Answer × Node
  | [] => ([], node)
  | call :: rest =>
    let (answer, node) := node.answer call
    let (later, node) := node.answers rest
    (answer :: later, node)

end Node

end DelayChain
