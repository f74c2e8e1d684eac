import Mathlib.Logic.Basic
import DelayChain.Node.Session

/-!
# What the operations of a node leave alone

Proposing, finalizing, checking and producing move a node through its cycle and change nothing else:
what it holds to and its schedule stay. A finalization is refused, or it ends with a finalized block, or
without one. Accepting a block is the one operation that can change the schedule, so what holds of a
session at the start holds of every run if accepting keeps it.
-/

set_option autoImplicit false
set_option relaxedAutoImplicit false

namespace DelayChain.Node

/-- Two nodes differ at most in where they stand in a cycle. -/
structure Agrees (node node' : Node) : Prop where
  rules : node'.rules = node.rules
  adjuster : node'.adjuster = node.adjuster
  maxRequests : node'.maxRequests = node.maxRequests
  schedule : node'.schedule = node.schedule

theorem Agrees.refl (node : Node) : node.Agrees node := ⟨rfl, rfl, rfl, rfl⟩

theorem Agrees.trans {a b c : Node} (hab : a.Agrees b) (hbc : b.Agrees c) : a.Agrees c where
  rules := hbc.rules.trans hab.rules
  adjuster := hbc.adjuster.trans hab.adjuster
  maxRequests := hbc.maxRequests.trans hab.maxRequests
  schedule := hbc.schedule.trans hab.schedule

theorem Agrees.symm {a b : Node} (agrees : a.Agrees b) : b.Agrees a :=
  ⟨agrees.rules.symm, agrees.adjuster.symm, agrees.maxRequests.symm, agrees.schedule.symm⟩

/-- What comes of asking for a finalization: the result, and the node behind it. -/
inductive Finalization (node : Node) (now : Int64) (mined : MinedBlock) :
    Except Failure Block × Node → Prop
  /-- No proposal waits. -/
  | early (closed : node.phase ≠ .powDone) :
      Finalization node now mined (.error (.wrongPhase .powDone node.phase), node)
  /-- The proposal that waits has another work hash. -/
  | foreign (ready : node.phase = .powDone) (other : node.proposed ≠ some mined.workHash) :
      Finalization node now mined (.error (.notProposed mined.workHash), node)
  /-- The delay is proved and the proof attached. -/
  | done (ready : node.phase = .powDone) (own : node.proposed = some mined.workHash) (block : Block)
      (attached : mined.finalize node.rules.delay node.rules.input node.rules.hasher now = .ok block) :
      Finalization node now mined
        (.ok block, { node with
          proposed := none, timed := { node.timed with delay := true }, phase := .finalized })
  /-- The delay is not proved. -/
  | unproven (ready : node.phase = .powDone) (own : node.proposed = some mined.workHash)
      (error : Delay.ProvingError)
      (failed : mined.finalize node.rules.delay node.rules.input node.rules.hasher now =
        .error error) :
      Finalization node now mined
        (.error (.proving error), { node with proposed := none, phase := .idle })

theorem finalization_finalize (node : Node) (now : Int64) (mined : MinedBlock) :
    node.Finalization now mined (node.finalize now mined) := by
  unfold finalize
  split
  · next closed => exact .early closed
  · next opened =>
    have ready := Decidable.not_not.mp opened
    split
    · next other => exact .foreign ready other
    · next own =>
      dsimp only
      split
      · next block attached => exact .done ready (Decidable.not_not.mp own) block attached
      · next error failed => exact .unproven ready (Decidable.not_not.mp own) error failed

variable (node : Node)

theorem agrees_propose (now : Int64) (parent : Block) (requests : List Request) :
    node.Agrees (node.propose now parent requests).2 := by
  unfold propose
  dsimp only
  cases node.beginCycle.mineChild now parent requests with
  | error error => exact ⟨rfl, rfl, rfl, rfl⟩
  | ok mined => exact ⟨rfl, rfl, rfl, rfl⟩

theorem agrees_finalize (now : Int64) (mined : MinedBlock) :
    node.Agrees (node.finalize now mined).2 := by
  have finalization := node.finalization_finalize now mined
  generalize node.finalize now mined = result at finalization ⊢
  cases finalization with
  | early closed => exact Agrees.refl node
  | foreign ready other => exact Agrees.refl node
  | done ready own block attached => exact ⟨rfl, rfl, rfl, rfl⟩
  | unproven ready own error failed => exact ⟨rfl, rfl, rfl, rfl⟩

theorem agrees_check (block : Block) : node.Agrees (node.check block).2 := by
  unfold check
  split
  · exact ⟨rfl, rfl, rfl, rfl⟩
  · exact ⟨rfl, rfl, rfl, rfl⟩

theorem agrees_make (now later : Int64) (parent : Block) (requests : List Request) :
    node.Agrees (node.make now later parent requests).2 := by
  have proposing := node.agrees_propose now parent requests
  unfold make
  cases proposed : node.propose now parent requests with
  | mk result node₁ =>
    rw [proposed] at proposing
    cases result with
    | error failure => exact proposing
    | ok mined => exact proposing.trans (node₁.agrees_finalize later mined)

theorem agrees_produce (now later : Int64) (parent : Block) (requests : List Request) :
    node.Agrees (node.produce now later parent requests).2 := by
  have making := node.agrees_make now later parent requests
  unfold produce
  cases made : node.make now later parent requests with
  | mk result node₁ =>
    rw [made] at making
    cases result with
    | error failure => exact making
    | ok block =>
      have checking := node₁.agrees_check block
      dsimp only
      cases checked : node₁.check block with
      | mk verdict node₂ =>
        rw [checked] at checking
        cases verdict with
        | error reason => exact making.trans checking
        | ok => exact making.trans checking

end DelayChain.Node

namespace DelayChain.Session

variable {Holds : Session → Prop} {session last : Session}

theorem step?_eq_some_iff {operation : Operation} :
    session.step? operation = some last ↔
      ¬session.Overflows operation ∧ session.perform operation = last := by
  rw [step?, Option.ite_none_left_eq_some, Option.some.injEq]

private theorem holds_of_step?
    (moves : ∀ {node node' chain}, Holds ⟨node, chain⟩ → node.Agrees node' → Holds ⟨node', chain⟩)
    (offers : ∀ {node chain block}, Holds ⟨node, chain⟩ → ¬node.AcceptanceOverflows chain block →
      Holds ⟨(node.accept chain block).2.1, (node.accept chain block).2.2⟩)
    (holds : Holds session) {operation : Operation} (stepped : session.step? operation = some last) :
    Holds last := by
  obtain ⟨timely, rfl⟩ := step?_eq_some_iff.mp stepped
  cases operation with
  | propose now parent requests =>
    exact moves holds (session.node.agrees_propose now parent requests)
  | finalize now mined => exact moves holds (session.node.agrees_finalize now mined)
  | produce now later parent requests =>
    exact moves holds (session.node.agrees_produce now later parent requests)
  | check block => exact moves holds (session.node.agrees_check block)
  | accept block => exact offers holds timely
  | audit => exact holds

/-- What holds of a session holds after any operations, if it does not depend on where the node stands in
its cycle and is kept by offering a block. -/
theorem holds_of_run?
    (moves : ∀ {node node' chain}, Holds ⟨node, chain⟩ → node.Agrees node' → Holds ⟨node', chain⟩)
    (offers : ∀ {node chain block}, Holds ⟨node, chain⟩ → ¬node.AcceptanceOverflows chain block →
      Holds ⟨(node.accept chain block).2.1, (node.accept chain block).2.2⟩)
    (holds : Holds session) {operations : List Operation}
    (ran : session.run? operations = some last) : Holds last := by
  induction operations generalizing session with
  | nil =>
    obtain rfl := Option.some.inj ran
    exact holds
  | cons operation rest ih =>
    obtain ⟨next, stepped, ran⟩ := Option.bind_eq_some_iff.mp ran
    exact ih (holds_of_step? moves offers holds stepped) ran

end DelayChain.Session
