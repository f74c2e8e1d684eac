import DelayChain.Proofs.Phases
import DelayChain.Proofs.Replay

/-!
# Refused blocks between the operations of a node

Blocks from outside are checked or offered at any point of a run. One that is refused leaves chain and
schedule alone, and the work hash that waits; but the phase no longer tells that a block waits. So the
run goes on as it would have without the block, except that a proposal cannot be finalized any more
until the phase is set anew.
-/

set_option autoImplicit false
set_option relaxedAutoImplicit false

namespace DelayChain

/-- The block of a check or of an offer is refused. -/
def Answer.refuses : Answer → Bool
  | .checked (.error _) | .accepted (.error (.rejected _)) _ => true
  | _ => false

instance : DecidablePred Answer.Finalizes
  | .finalized (.ok _) | .produced (.ok _) => .isTrue trivial
  | .finalized (.error _) | .produced (.error _) | .proposed _ | .raced _ | .raceBroken | .checked _
  | .validated _ | .accepted _ _ | .retargeted _ | .audited _ => .isFalse id

namespace Operation

def call (chain : Chain) : Operation → Call
  | .propose now parent requests => .propose now parent requests
  | .finalize now mined => .finalize now mined
  | .produce now later parent requests => .produce now later parent requests
  | .check block => .check block
  | .accept block => .accept chain block
  | .audit => .audit chain

/-- The phase behind the operation does not depend on the phase before it. -/
def setsPhase : Operation → Bool
  | .finalize _ _ | .audit => false
  | .propose _ _ _ | .produce _ _ _ _ | .check _ | .accept _ => true

/-- The answer behind a refused block, by what it would be without that block. -/
def muted (answer : Answer) : Operation → Answer
  | .finalize _ _ => .finalized (.error (.wrongPhase .powDone .rejected))
  | .propose _ _ _ | .produce _ _ _ _ | .check _ | .accept _ | .audit => answer

end Operation

/-- What happens to a node: an operation of its own run, or one with a block from outside. -/
inductive Event where
  | own (operation : Operation)
  | intrusion (operation : Operation)

namespace Event

def isOwn : Event → Bool
  | .own _ => true
  | .intrusion _ => false

/-- The answers of a run among intrusions, by the answers that it gives without them. Whether the phase
was last set by an intrusion is kept on the way. -/
def muted : Bool → List Event → List Answer → List Answer
  | _, .intrusion _ :: events, answers => muted true events answers
  | shut, .own operation :: events, answer :: answers =>
    (if shut then operation.muted answer else answer) ::
      muted (shut && !operation.setsPhase) events answers
  | _, _, _ => []

end Event

namespace Session

def reply (session : Session) (operation : Operation) : Answer :=
  (session.node.answer (operation.call session.chain)).1

/-- The answers of a run among intrusions and the session behind it, unless the process ends or the
block of an intrusion is not refused. -/
def replies? (session : Session) : List Event → Option (List Answer × Session)
  | [] => some ([], session)
  | .own operation :: rest =>
    (session.step? operation).bind fun next =>
      (next.replies? rest).map fun (answers, last) => (session.reply operation :: answers, last)
  | .intrusion operation :: rest =>
    if (session.reply operation).refuses then
      (session.step? operation).bind fun next => next.replies? rest
    else none

end Session

namespace Node

variable {node node' : Node} {now later : Int64} {parent block : Block} {requests : List Request}
  {mined : MinedBlock} {chain : Chain}

private theorem Agrees.propose_eq (agrees : node.Agrees node') :
    node'.propose now parent requests = node.propose now parent requests := by
  have begun : node'.beginCycle = node.beginCycle := by
    obtain ⟨phase, timed, proposed, rfl⟩ := agrees.exists_eq
    rfl
  unfold propose
  rw [begun]

private theorem Agrees.produce_eq (agrees : node.Agrees node') :
    node'.produce now later parent requests = node.produce now later parent requests := by
  unfold produce make
  rw [agrees.propose_eq]

private theorem Agrees.check (agrees : node.Agrees node') (block : Block) :
    (node'.check block).1 = (node.check block).1 ∧
      (node'.check block).2.phase = (node.check block).2.phase := by
  obtain ⟨phase, timed, proposed, rfl⟩ := agrees.exists_eq
  unfold Node.check
  dsimp only
  cases node.rules.check node.schedule block with
  | error reason => exact ⟨rfl, rfl⟩
  | ok => exact ⟨rfl, rfl⟩

private theorem Agrees.phase_accept (agrees : node.Agrees node') (chain : Chain) (block : Block) :
    (node'.accept chain block).2.1.phase = (node.accept chain block).2.1.phase := by
  obtain ⟨phase, timed, proposed, rfl⟩ := agrees.exists_eq
  rw [accept_frame]

private theorem Agrees.audit_eq (agrees : node.Agrees node') (chain : Chain) :
    node'.audit chain = node.audit chain := by
  obtain ⟨phase, timed, proposed, rfl⟩ := agrees.exists_eq
  unfold audit
  generalize chain.genesis = parent
  induction chain.accepted generalizing parent with
  | nil => rfl
  | cons block rest ih =>
    unfold auditFrom
    rw [ih]

theorem finalize_of_phase_ne (closed : node.phase ≠ .powDone) (now : Int64) (mined : MinedBlock) :
    node.finalize now mined = (.error (.wrongPhase .powDone node.phase), node) := by
  rw [finalize, if_pos closed]

/-- The two nodes stand at one point of their cycles: in one phase, and where a block waits it is one
and the same. -/
def Abreast (node node' : Node) : Prop :=
  node'.phase = node.phase ∧ (node.phase = .powDone → node'.proposed = node.proposed)

private theorem abreast_of_closed (phase : node'.phase = node.phase) (closed : node.phase.Closed) :
    node.Abreast node' := by
  refine ⟨phase, ?_⟩
  intro ready
  rw [ready] at closed
  exact nomatch closed

private theorem Agrees.finalize (agrees : node.Agrees node') (abreast : node.Abreast node')
    (now : Int64) (mined : MinedBlock) :
    (node'.finalize now mined).1 = (node.finalize now mined).1 ∧
      (node.finalize now mined).2.Abreast (node'.finalize now mined).2 := by
  by_cases ready : node.phase = .powDone
  · obtain ⟨same, waits⟩ := abreast
    have proposed := waits ready
    obtain ⟨_, timed, _, rfl⟩ := agrees.exists_eq
    cases same
    cases proposed
    unfold Node.finalize
    dsimp only
    split
    · exact ⟨rfl, rfl, fun _ => rfl⟩
    · split
      · exact ⟨rfl, rfl, fun _ => rfl⟩
      · cases mined.finalize node.rules.delay node.rules.input node.rules.hasher now with
        | error error => exact ⟨rfl, rfl, fun _ => rfl⟩
        | ok block => exact ⟨rfl, rfl, fun _ => rfl⟩
  · have ready' : node'.phase ≠ .powDone := abreast.1 ▸ ready
    rw [finalize_of_phase_ne ready, finalize_of_phase_ne ready', abreast.1]
    exact ⟨rfl, abreast⟩

end Node

namespace Session

variable {plain session next : Session} {shut : Bool} {operation : Operation}

private theorem perform_of_refuses (refused : (session.reply operation).refuses) :
    session.perform operation = ⟨{ session.node with phase := .rejected }, session.chain⟩ := by
  cases operation with
  | propose | finalize | produce | audit => exact absurd refused Bool.false_ne_true
  | check block =>
    unfold reply Operation.call Node.answer at refused
    unfold perform
    dsimp only at refused ⊢
    unfold Node.check at refused ⊢
    cases verdict : session.node.rules.check session.node.schedule block with
    | ok =>
      rw [verdict] at refused
      exact absurd refused Bool.false_ne_true
    | error reason => rfl
  | accept block =>
    have offered := session.node.offer_accept session.chain block
    unfold reply Operation.call Node.answer at refused
    unfold perform
    dsimp only at refused ⊢
    generalize session.node.accept session.chain block = result at offered refused ⊢
    cases offered with
    | refused reason fault => rfl
    | joined | retargeted | stuck => exact absurd refused Bool.false_ne_true

/-- A session keeps up with a plain one, which sees no intrusions: chain and settings are the same, and
either both nodes stand at one point of their cycles or an intrusion has set the phase. -/
structure KeepsUp (shut : Bool) (plain session : Session) : Prop where
  chain : session.chain = plain.chain
  agrees : plain.node.Agrees session.node
  stands : if shut then session.node.phase = .rejected else plain.node.Abreast session.node

private theorem keepsUp_of_sets (sets : operation.setsPhase = true)
    (chain : session.chain = plain.chain)
    (agrees : plain.node.Agrees session.node) (abreast : plain.node.Abreast session.node) :
    KeepsUp (shut && !operation.setsPhase) plain session := by
  rw [sets, Bool.not_true, Bool.and_false]
  exact ⟨chain, agrees, abreast⟩

namespace KeepsUp

private theorem intrusion (keeps : KeepsUp shut plain session)
    (refused : (session.reply operation).refuses) :
    KeepsUp true plain (session.perform operation) := by
  rw [perform_of_refuses refused]
  exact ⟨keeps.chain, keeps.agrees.trans ⟨rfl, rfl, rfl, rfl⟩, rfl⟩

private theorem overflows_iff (keeps : KeepsUp shut plain session) :
    session.Overflows operation ↔ plain.Overflows operation := by
  cases operation with
  | propose | produce =>
    unfold Overflows Node.ProposalOverflows
    rw [keeps.agrees.maxRequests]
  | accept block =>
    unfold Overflows
    rw [keeps.chain]
    exact keeps.agrees.acceptanceOverflows_iff
  | finalize | check | audit => exact Iff.rfl

private theorem reply (keeps : KeepsUp shut plain session) :
    session.reply operation =
      if shut then operation.muted (plain.reply operation) else plain.reply operation := by
  unfold Session.reply
  rw [keeps.chain]
  cases operation with
  | propose | produce =>
    simp only [Operation.call, Operation.muted, Node.answer, keeps.agrees.propose_eq,
      keeps.agrees.produce_eq, ite_self]
  | check block =>
    have same := (keeps.agrees.check block).1
    simp only [Operation.call, Operation.muted, Node.answer, same, ite_self]
  | accept block =>
    obtain ⟨verdict, chain, -⟩ := keeps.agrees.accept plain.chain block
    simp only [Operation.call, Operation.muted, Node.answer, verdict, chain, ite_self]
  | audit =>
    have same := keeps.agrees.audit_eq plain.chain
    simp only [Operation.call, Operation.muted, Node.answer, same, ite_self]
  | finalize now mined =>
    have stands := keeps.stands
    cases shut with
    | true =>
      have rejected : session.node.phase = .rejected := stands
      have closed : session.node.phase ≠ .powDone := by
        rw [rejected]
        decide
      simp only [Operation.call, Operation.muted, Node.answer,
        Node.finalize_of_phase_ne closed, rejected, if_true]
    | false =>
      have same := (keeps.agrees.finalize stands now mined).1
      simp only [Operation.call, Node.answer, same, Bool.false_eq_true, if_false]

private theorem perform (keeps : KeepsUp shut plain session) :
    KeepsUp (shut && !operation.setsPhase) (plain.perform operation)
      (session.perform operation) := by
  have agrees := keeps.agrees
  cases operation with
  | propose | produce =>
    refine keepsUp_of_sets rfl keeps.chain ?_ ?_
    · simp only [Session.perform, agrees.propose_eq, agrees.produce_eq]
      exact .refl _
    · simp only [Session.perform, agrees.propose_eq, agrees.produce_eq]
      exact ⟨rfl, fun _ => rfl⟩
  | check block =>
    have before := (plain.node.agrees_check block).symm
    have behind := session.node.agrees_check block
    refine keepsUp_of_sets rfl keeps.chain ((before.trans agrees).trans behind) ?_
    exact Node.abreast_of_closed (agrees.check block).2 (plain.node.closed_check block)
  | accept block =>
    obtain ⟨-, chains, nodes⟩ := agrees.accept plain.chain block
    simp only [Session.perform, keeps.chain]
    refine keepsUp_of_sets rfl chains nodes ?_
    exact Node.abreast_of_closed (agrees.phase_accept plain.chain block)
      (plain.node.closed_accept plain.chain block)
  | audit =>
    rw [Operation.setsPhase, Bool.not_false, Bool.and_true]
    exact keeps
  | finalize now mined =>
    rw [Operation.setsPhase, Bool.not_false, Bool.and_true]
    have before := (plain.node.agrees_finalize now mined).symm
    have behind := session.node.agrees_finalize now mined
    refine ⟨keeps.chain, (before.trans agrees).trans behind, ?_⟩
    have stands := keeps.stands
    cases shut with
    | true =>
      have rejected : session.node.phase = .rejected := stands
      have closed : session.node.phase ≠ .powDone := by
        rw [rejected]
        decide
      show (session.node.finalize now mined).2.phase = .rejected
      rw [Node.finalize_of_phase_ne closed]
      exact rejected
    | false => exact (agrees.finalize stands now mined).2

private theorem own (keeps : KeepsUp shut plain session)
    (stepped : session.step? operation = some next) :
    ∃ plain', plain.step? operation = some plain' ∧
      KeepsUp (shut && !operation.setsPhase) plain' next := by
  obtain ⟨timely, rfl⟩ := step?_eq_some_iff.mp stepped
  rw [keeps.overflows_iff] at timely
  exact ⟨_, step?_eq_some_iff.mpr ⟨timely, rfl⟩, keeps.perform⟩

private theorem replies {events : List Event} {answers : List Answer} {last : Session}
    (keeps : KeepsUp shut plain session) (ran : session.replies? events = some (answers, last)) :
    ∃ answers' last' shut', plain.replies? (events.filter Event.isOwn) = some (answers', last') ∧
      KeepsUp shut' last' last ∧ answers = Event.muted shut events answers' := by
  induction events generalizing shut plain session answers with
  | nil =>
    cases ran
    exact ⟨[], plain, shut, rfl, keeps, rfl⟩
  | cons event rest ih =>
    cases event with
    | intrusion operation =>
      rw [replies?] at ran
      split at ran
      · next refused =>
        obtain ⟨next, stepped, ran⟩ := Option.bind_eq_some_iff.mp ran
        obtain ⟨-, rfl⟩ := step?_eq_some_iff.mp stepped
        exact ih (keeps.intrusion refused) ran
      · exact nomatch ran
    | own operation =>
      rw [replies?] at ran
      obtain ⟨next, stepped, ran⟩ := Option.bind_eq_some_iff.mp ran
      obtain ⟨⟨later, final⟩, behind, together⟩ := Option.map_eq_some_iff.mp ran
      cases together
      obtain ⟨plain', stepped', keeps'⟩ := keeps.own stepped
      obtain ⟨later', last', shut', ran', keeps'', same⟩ := ih keeps' behind
      refine ⟨plain.reply operation :: later', last', shut', ?_, keeps'', ?_⟩
      · rw [List.filter_cons_of_pos rfl, replies?, stepped', Option.bind_some, ran']
        rfl
      · rw [Event.muted, keeps.reply, same]

end KeepsUp

/-- Refused blocks change neither the chain nor the schedule that a run ends with, and of its answers
only those to finalizations behind such a block, up to the next operation that sets the phase: these are
refused for the phase, whether or not a block waits. -/
theorem replies_among_intrusions {session last : Session} {events : List Event}
    {answers : List Answer} (ran : session.replies? events = some (answers, last)) :
    (∃ answers' last', session.replies? (events.filter Event.isOwn) = some (answers', last') ∧
      last.chain = last'.chain ∧ last.node.schedule = last'.node.schedule ∧
      answers = Event.muted false events answers') ∧
    ∀ operation, (last.reply operation).refuses → ∀ now mined,
      (last.perform operation).node.finalize now mined =
        (.error (.wrongPhase .powDone .rejected), (last.perform operation).node) := by
  constructor
  · have alone : KeepsUp false session session := ⟨rfl, .refl _, rfl, fun _ => rfl⟩
    obtain ⟨answers', last', shut, ran', keeps, same⟩ := alone.replies ran
    exact ⟨answers', last', ran', keeps.chain, keeps.agrees.schedule, same⟩
  · intro operation refused now mined
    rw [perform_of_refuses refused]
    exact Node.finalize_of_phase_ne Phase.noConfusion now mined

/-- A proposal is finalized, but not behind the check of a block that is refused. -/
theorem replies_among_intrusions_of_genesis :
    ∃ mined proposal answer last last',
      let session := start (.rehearsal (.constant 1)) Block.genesis
      let events : List Event :=
        [.own (.propose 0 Block.genesis []), .intrusion (.check Block.genesis),
          .own (.finalize 0 mined)]
      session.replies? (events.filter Event.isOwn) = some ([proposal, answer], last') ∧
        answer.Finalizes ∧
      session.replies? events =
        some ([proposal, .finalized (.error (.wrongPhase .powDone .rejected))], last) ∧
      last.chain = last'.chain ∧ last.node.schedule = last'.node.schedule := by
  let session : Session := start (.rehearsal (.constant 1)) Block.genesis
  let events (mined : MinedBlock) : List Event :=
    [.own (.propose 0 Block.genesis []), .intrusion (.check Block.genesis),
      .own (.finalize 0 mined)]
  have runs : ∃ mined, (session.replies? (events mined)).isSome = true ∧
      (session.replies? ((events mined).filter Event.isOwn)).map
        (fun run => run.1.map fun answer => decide answer.Finalizes) = some [false, true] := by
    refine ⟨(session.node.propose 0 Block.genesis []).1.toOption.getD
      ⟨Block.genesis.sealWith "0", "0", rfl⟩, ?_, ?_⟩
    · decide +kernel
    · decide +kernel
  obtain ⟨mined, given, finalizes⟩ := runs
  obtain ⟨⟨answers, last⟩, ran⟩ := Option.isSome_iff_exists.mp given
  obtain ⟨⟨answers', last', ran', chain, schedule, same⟩, -⟩ := replies_among_intrusions ran
  rw [ran', Option.map_some, Option.some.injEq] at finalizes
  obtain ⟨proposal, rest, rfl, -, finalizes⟩ := List.map_eq_cons_iff.mp finalizes
  obtain ⟨answer, rest, rfl, second, finalizes⟩ := List.map_eq_cons_iff.mp finalizes
  obtain rfl := List.map_eq_nil_iff.mp finalizes
  have shut : answers = [proposal, .finalized (.error (.wrongPhase .powDone .rejected))] := same
  rw [shut] at ran
  exact ⟨mined, proposal, answer, last, last', ran', of_decide_eq_true second, ran, chain,
    schedule⟩

end Session

end DelayChain
