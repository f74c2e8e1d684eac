import DelayChain.Node.Config
import DelayChain.Node.Race
import DelayChain.Text.Duration

/-!
# A run of a node

A run reads its settings, produces the number of blocks they ask for on a new chain, and audits the
chain. Clock, stopwatch and output belong to the host, so a run is the same function on a machine
and on a host whose clock stands still.
-/

set_option autoImplicit false
set_option relaxedAutoImplicit false

namespace DelayChain

/-- What a run needs from the machine it runs on. -/
structure Host (m : Type → Type) where
  /-- The time of day, in milliseconds since the epoch. -/
  now : m Int64
  /-- A value, and how long it took to compute, in nanoseconds. -/
  timed : {α : Type} → (Unit → α) → m (α × Nat)
  /-- Writes a text to the output. -/
  print : String → m Unit

/-- How a run ends: its exit code and what it reports as an error. -/
structure RunEnd where
  exitCode : Nat
  report : String
  deriving DecidableEq

namespace Run

/-- Why a run fails. -/
inductive RunError where
  | config (error : ConfigError)
  | node (failure : Failure)

/-- The text of a rejection and of what lies behind it. -/
def rejectionTexts (reason : Rejection) : List String :=
  reason.message ::
    match reason with
    | .work inner => [inner.message]
    | .delay inner => [inner.message]
    | _ => []

def RunError.texts : RunError → List String
  | .config error => ["invalid node configuration", error.message]
  | .node failure =>
    failure.message ::
      match failure with
      | .rejected reason => rejectionTexts reason
      | _ => []

/-- The lines of causes, numbered where there are several. -/
def causeLines (causes : List String) : List String :=
  match causes with
  | [cause] => ["    " ++ cause]
  | causes => causes.mapIdx fun i cause => "    " ++ toString i ++ ": " ++ cause

/-- The report of an error and its causes. -/
def errorReport : List String → String
  | [] => ""
  | text :: causes =>
    "Error: " ++ text ++ "\n" ++
      if causes.isEmpty then ""
      else "\nCaused by:\n" ++ String.join ((causeLines causes).map (· ++ "\n"))

/-- What a run says before its first block. -/
def opening (config : Config) : String :=
  "⛓️ Starting hybrid PoW/PoSW node\n" ++
    s!"   VDF: {config.delay.summary}\n" ++
    s!"   difficulty: {config.initialDifficulty} (max {config.maxDifficulty}), " ++
    s!"window {config.window} blocks, target {config.targetSeconds}s\n"

/-- What a run says about an accepted block. -/
def blockLine (height : UInt64) (block : Block) (work delay : Nat) : String :=
  let size := (block.proof.map Delay.Proof.size).getD 0
  s!"#{height} {block.hash} pow={Text.Duration.text work} vdf={Text.Duration.text delay} " ++
    s!"proof={size}B\n"

/-- The one request of a round. -/
def note (round : Nat) : Request := Request.make 0 (UInt64.ofNat round) s!"note {round}" ""

variable {m : Type → Type} [Monad m]

/-- Proposes and finalizes a block on the tip of a chain; gives it with the times of both stages. -/
def produceBlock (host : Host m) (node : Node) (chain : Chain) (round : Nat) :
    m (Except Failure (Block × Nat × Nat) × Node) := do
  let now ← host.now
  let ((outcome, node), work) ←
    host.timed fun _ => node.proposeRacing now chain.tip [note round] [.searchEnded]
  match outcome with
  | .error failure => return (.error failure, node)
  | .ok (.received block) => return (.ok (block, 0, 0), node)
  | .ok (.mined mined) =>
    let now ← host.now
    let ((outcome, node), delay) ← host.timed fun _ => node.finalize now mined
    return (outcome.map fun block => (block, work, delay), node)

/-- Produces and accepts blocks, as many as asked for, from the given round on. -/
def produceBlocks (host : Host m) (round : Nat) : (count : Nat) → Node → Chain →
    m (Except Failure Unit × Node × Chain)
  | 0, node, chain => return (.ok (), node, chain)
  | count + 1, node, chain => do
    match ← produceBlock host node chain round with
    | (.error failure, node) => return (.error failure, node, chain)
    | (.ok (block, work, delay), node) =>
      match node.accept chain block with
      | (.error failure, node, chain) => return (.error failure, node, chain)
      | (.ok (), node, chain) =>
        host.print (blockLine chain.height block work delay)
        produceBlocks host (round + 1) count node chain

/-- Produces the blocks of the settings and audits the chain. -/
def ofConfig (host : Host m) (config : Config) : m (Except Failure Unit) := do
  host.print (opening config)
  match ← produceBlocks host 0 config.blocks (config.node none) (Chain.ofGenesis Block.genesis) with
  | (.error failure, _, _) => return .error failure
  | (.ok (), node, chain) =>
    match node.audit chain with
    | .error failure => return .error failure
    | .ok () =>
      host.print s!"✅ {config.blocks} blocks produced and audited\n"
      return .ok ()

/-- A whole run from its settings. -/
def perform (host : Host m) (lookup : String → Option String) : m RunEnd := do
  let failed (error : RunError) : RunEnd := ⟨1, errorReport error.texts⟩
  match Config.read lookup with
  | .error error => return failed (.config error)
  | .ok config =>
    match ← ofConfig host config with
    | .error failure => return failed (.node failure)
    | .ok () => return ⟨0, ""⟩

/-- A host whose clock stands at one time and that collects the output. -/
def stillHost (now : Int64) : Host (StateM String) where
  now := pure now
  timed := fun compute => pure (compute (), 0)
  print := fun text => modify (· ++ text)

end Run

end DelayChain
