import DelayChain.Node.Cycle

/-!
# Sessions

A node works on one chain, one operation after another, in a build with overflow checks: heights are
words of sixty-four bits, and an addition that leaves them ends the process. So an operation that counts
on from the greatest height leads nowhere, and a run that meets one has no session behind it. The span of
a window goes round instead, as it does without the checks; with them the process ends there, and the
runs up to that point are among those described here.
-/

set_option autoImplicit false
set_option relaxedAutoImplicit false

namespace DelayChain

/-- The height behind which there is no other. -/
def greatestHeight : UInt64 := 0xffffffffffffffff

namespace Node

/-- The proposal of a child counts on from the height of its parent, once the requests are counted. -/
def ProposalOverflows (node : Node) (parent : Block) (requests : List Request) : Prop :=
  requests.length ≤ node.maxRequests ∧ parent.height = greatestHeight

instance (node : Node) (parent : Block) (requests : List Request) :
    Decidable (node.ProposalOverflows parent requests) :=
  inferInstanceAs (Decidable (_ ∧ _))

/-- The newest block ends a window whose pace changes the difficulty. -/
def Retargets (node : Node) (chain : Chain) : Prop :=
  node.EndsWindow chain ∧ node.nextDifficulty chain ≠ node.currentDifficulty chain

instance (node : Node) (chain : Chain) : Decidable (node.Retargets chain) :=
  inferInstanceAs (Decidable (_ ∧ _))

/-- Accepting a block counts on from the tip, and from the block where it changes the difficulty. -/
def AcceptanceOverflows (node : Node) (chain : Chain) (block : Block) : Prop :=
  chain.tip.height = greatestHeight ∨
    block.height = greatestHeight ∧
      (node.rules.checkOn node.schedule chain.tip block).isOk ∧ node.Retargets (chain.push block)

instance (node : Node) (chain : Chain) (block : Block) :
    Decidable (node.AcceptanceOverflows chain block) :=
  inferInstanceAs (Decidable (_ ∨ _))

/-- A node for rehearsals, where every nonce wins up to difficulty four and windows are short. -/
def rehearsal (schedule : Schedule) : Node :=
  start { hasher := fun _ => "0000", delay := .rehearsal 1, input := .workHash, senders := none }
    (.of 2 600 4) 3 schedule

/-- The block that a node produces at the beginning of time, without requests. -/
def produced? (node : Node) (parent : Block) : Option Block := (node.produce 0 0 parent []).1.toOption

end Node

/-- A child that a node for rehearsals takes: mined at difficulty one, its delay a single squaring. -/
def Block.rehearsed (parent : Block) (timestamp : Int64) : Block where
  height := parent.height + 1
  parent := some parent.hash
  requests := []
  hash := "0000"
  timestamp
  nonce := 0
  difficulty := 1
  workHash := some "0000"
  proof := some
    ⟨(Node.rehearsal (.constant 1)).rules.delay.evaluate (Bytes.ofText "0000"), [], 1, 0⟩
  time := 1
  finalized := true

/-- A node and the chain that it works on. -/
structure Session where
  node : Node
  chain : Chain

/-- What a node is asked to do. -/
inductive Operation where
  | propose (now : Int64) (parent : Block) (requests : List Request)
  | finalize (now : Int64) (mined : MinedBlock)
  | produce (now later : Int64) (parent : Block) (requests : List Request)
  | check (block : Block)
  | accept (block : Block)
  | audit

/-- One round of production: the requests, and the clock at the proposal and at the delay proof. -/
structure Round where
  now : Int64
  later : Int64
  requests : List Request

/-- What comes of a round: no block, or a block with the verdicts of the check and of the chain. -/
inductive RoundEnd where
  | failed (failure : Failure)
  | judged (checked : Except Rejection Unit) (accepted : Except Failure Unit)

namespace Session

/-- A node at the foot of a new chain. -/
def start (node : Node) (genesis : Block) : Session := ⟨node, Chain.ofGenesis genesis⟩

/-- An operation needs the height behind the greatest. -/
def Overflows (session : Session) : Operation → Prop
  | .propose _ parent requests => session.node.ProposalOverflows parent requests
  | .produce _ _ parent requests => session.node.ProposalOverflows parent requests
  | .accept block => session.node.AcceptanceOverflows session.chain block
  | .finalize _ _ | .check _ | .audit => False

instance (session : Session) : (operation : Operation) → Decidable (session.Overflows operation)
  | .propose _ parent requests =>
    inferInstanceAs (Decidable (session.node.ProposalOverflows parent requests))
  | .produce _ _ parent requests =>
    inferInstanceAs (Decidable (session.node.ProposalOverflows parent requests))
  | .accept block => inferInstanceAs (Decidable (session.node.AcceptanceOverflows session.chain block))
  | .finalize _ _ | .check _ | .audit => inferInstanceAs (Decidable False)

def perform (session : Session) : Operation → Session
  | .propose now parent requests =>
    { session with node := (session.node.propose now parent requests).2 }
  | .finalize now mined => { session with node := (session.node.finalize now mined).2 }
  | .produce now later parent requests =>
    { session with node := (session.node.produce now later parent requests).2 }
  | .check block => { session with node := (session.node.check block).2 }
  | .accept block =>
    let (_, node, chain) := session.node.accept session.chain block
    ⟨node, chain⟩
  | .audit => session

/-- The session after an operation, unless that ends the process. -/
def step? (session : Session) (operation : Operation) : Option Session :=
  if session.Overflows operation then none else some (session.perform operation)

def run? (session : Session) : List Operation → Option Session
  | [] => some session
  | operation :: rest => (session.step? operation).bind fun session => session.run? rest

/-- Proposes on the tip, finalizes the proposal, checks the block, and offers it to the chain. -/
def round? (session : Session) (round : Round) : Option (RoundEnd × Session) :=
  if session.node.ProposalOverflows session.chain.tip round.requests then none
  else
    match session.node.make round.now round.later session.chain.tip round.requests with
    | (.error failure, node) => some (.failed failure, { session with node })
    | (.ok block, node) =>
      let (checked, node) := node.check block
      if node.AcceptanceOverflows session.chain block then none
      else
        let (accepted, node, chain) := node.accept session.chain block
        some (.judged checked accepted, ⟨node, chain⟩)

/-- The ends of some rounds, one after another, and the session after them. -/
def rounds? (session : Session) : List Round → Option (List RoundEnd × Session)
  | [] => some ([], session)
  | round :: rest =>
    match session.round? round with
    | none => none
    | some (roundEnd, session) =>
      (session.rounds? rest).map fun (ends, session) => (roundEnd :: ends, session)

end Session

end DelayChain
