import DelayChain.Difficulty.Retarget
import DelayChain.Node.Failure

/-!
# The cycle of a node

A node proposes a block, finalizes the block it proposed, checks blocks and accepts them into a
chain, and moves its difficulty schedule along. Every operation gives its result together with the
node after it, so a failure shows what it changed.
-/

set_option autoImplicit false
set_option relaxedAutoImplicit false

namespace DelayChain

/-- Which stages of the cycle at hand have been timed. -/
structure Timed where
  work : Bool
  delay : Bool
  deriving DecidableEq

/-- No stage has been timed. -/
def Timed.none : Timed := ⟨false, false⟩

/-- A node: what it holds to, and where it stands. -/
structure Node where
  rules : Rules
  adjuster : Difficulty.Adjuster
  /-- The number of requests that a proposal may hold. -/
  maxRequests : Nat
  schedule : Schedule
  phase : Phase
  timed : Timed
  /-- The work hash of the block that waits to be finalized. -/
  proposed : Option String

namespace Node

/-- A node that has done nothing yet. -/
def start (rules : Rules) (adjuster : Difficulty.Adjuster) (maxRequests : Nat)
    (schedule : Schedule) : Node where
  rules
  adjuster
  maxRequests
  schedule
  phase := .idle
  timed := Timed.none
  proposed := none

/-- The node at the beginning of a new cycle. -/
def beginCycle (node : Node) : Node :=
  { node with phase := .proposing, timed := Timed.none, proposed := none }

/-- The node once it has mined a block of its own. -/
def noteMined (node : Node) (mined : MinedBlock) : Node :=
  { node with
    phase := .powDone
    timed := { node.timed with work := true }
    proposed := some mined.workHash }

/-- The search for a child of a block, by the node's own means. -/
def mineChild (node : Node) (now : Int64) (parent : Block) (requests : List Request) :
    Except ProposalError MinedBlock :=
  parent.propose node.rules.hasher node.schedule node.maxRequests now requests fun _ => false

/-- Mines a child of a block; a new cycle begins from any phase. -/
def propose (node : Node) (now : Int64) (parent : Block) (requests : List Request) :
    Except Failure MinedBlock × Node :=
  let node := node.beginCycle
  match node.mineChild now parent requests with
  | .ok mined => (.ok mined, node.noteMined mined)
  | .error error => (.error (.proposal error), { node with phase := .idle })

/-- Attaches a delay proof to the block of the proposal before. -/
def finalize (node : Node) (now : Int64) (mined : MinedBlock) : Except Failure Block × Node :=
  if node.phase ≠ .powDone then (.error (.wrongPhase .powDone node.phase), node)
  else if node.proposed ≠ some mined.workHash then (.error (.notProposed mined.workHash), node)
  else
    let node := { node with proposed := none, phase := .finalizing }
    match mined.finalize node.rules.delay node.rules.input node.rules.hasher now with
    | .ok block =>
      (.ok block, { node with timed := { node.timed with delay := true }, phase := .finalized })
    | .error error => (.error (.proving error), { node with phase := .idle })

/-- Checks a block by itself. -/
def check (node : Node) (block : Block) : Except Rejection Unit × Node :=
  match node.rules.check node.schedule block with
  | .ok () => (.ok (), { node with phase := .accepted })
  | .error reason => (.error reason, { node with phase := .rejected })

/-- Whether a block passes the check. -/
def validate (node : Node) (block : Block) : Bool × Node :=
  let (verdict, node) := node.check block
  (verdict.isOk, node)

/-- Proposes and finalizes a block. The clock is read for the proposal and again, later, for the
delay proof. -/
def make (node : Node) (now later : Int64) (parent : Block) (requests : List Request) :
    Except Failure Block × Node :=
  match node.propose now parent requests with
  | (.error failure, node) => (.error failure, node)
  | (.ok mined, node) => node.finalize later mined

/-- Proposes, finalizes and checks a block. -/
def produce (node : Node) (now later : Int64) (parent : Block) (requests : List Request) :
    Except Failure Block × Node :=
  match node.make now later parent requests with
  | (.error failure, node) => (.error failure, node)
  | (.ok block, node) =>
    match node.check block with
    | (.error reason, node) => (.error (.rejected reason), node)
    | (.ok (), node) => (.ok block, node)

/-- The newest block ends a full window of accepted blocks. -/
def EndsWindow (node : Node) (chain : Chain) : Prop :=
  chain.accepted ≠ [] ∧ chain.accepted.length % node.adjuster.window = 0

instance (node : Node) (chain : Chain) : Decidable (node.EndsWindow chain) :=
  inferInstanceAs (Decidable (_ ∧ _))

/-- The difficulty of the newest block. -/
def currentDifficulty (node : Node) (chain : Chain) : UInt32 :=
  node.schedule.difficultyAt chain.height

/-- The difficulty that the pace of the newest window asks for. -/
def nextDifficulty (node : Node) (chain : Chain) : UInt32 :=
  node.adjuster.retarget (chain.accepted.map (·.timestamp)) (node.currentDifficulty chain)

/-- Retargets once for every full window of accepted blocks, from the next height on, and gives the
new difficulty when it does. -/
def retarget (node : Node) (chain : Chain) : Except Failure (Option UInt32) × Node :=
  if ¬node.EndsWindow chain then (.ok none, node)
  else
    let next := node.nextDifficulty chain
    if next = node.currentDifficulty chain then (.ok (some next), node)
    else
      match node.schedule.record (chain.height + 1) next with
      | .ok schedule => (.ok (some next), { node with schedule })
      | .error error => (.error (.schedule error), node)

/-- Checks a block on top of a chain, appends it and retargets. -/
def accept (node : Node) (chain : Chain) (block : Block) : Except Failure Unit × Node × Chain :=
  match block.checkExtends chain.tip with
  | .error reason => (.error (.rejected reason), { node with phase := .rejected }, chain)
  | .ok () =>
    match node.check block with
    | (.error reason, node) => (.error (.rejected reason), node, chain)
    | (.ok (), node) =>
      match chain.append block with
      | .error error => (.error (.chain error), node, chain)
      | .ok chain =>
        match node.retarget chain with
        | (.error failure, node) => (.error failure, node, chain)
        | (.ok _, node) => (.ok (), node, chain)

/-- Checks each block on top of the one before and names the first that fails. -/
def auditFrom (node : Node) (parent : Block) : List Block → Except Failure Unit
  | [] => .ok ()
  | block :: rest =>
    match node.rules.checkOn node.schedule parent block with
    | .error reason => .error (.auditFailed block.height reason)
    | .ok () => node.auditFrom block rest

/-- Checks every accepted block of a chain again. -/
def audit (node : Node) (chain : Chain) : Except Failure Unit :=
  node.auditFrom chain.genesis chain.accepted

end Node

end DelayChain
