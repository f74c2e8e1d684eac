import DelayChain.Node.RaceTasks
import DelayChain.Proofs.Audit

/-!
# One verdict on a block

A block that is offered to a chain, audited at its end, or taken out of the channel of a race for its
tip is held to the same two checks in the same order, and refused for the same reason. Accepting has two
more stages behind them, which refuse no block that has passed. An audit stops at the first block that
fails and names it.
-/

set_option autoImplicit false
set_option relaxedAutoImplicit false

namespace DelayChain

private theorem Rules.checkOn_eq_error_iff {rules : Rules} {schedule : Schedule} {parent block : Block}
    {reason : Rejection} :
    rules.checkOn schedule parent block = .error reason ↔
      block.checkExtends parent = .error reason ∨
        block.checkExtends parent = .ok () ∧ rules.check schedule block = .error reason := by
  unfold checkOn
  cases block.checkExtends parent with
  | error misplaced => simp only [reduceCtorEq, false_and, or_false]
  | ok => simp only [reduceCtorEq, true_and, false_or]

namespace Node

variable {node : Node} {chain : Chain} {parent block : Block} {blocks : List Block}
  {reason : Rejection} {failure : Failure}

private theorem accept_eq_rejected_iff :
    (node.accept chain block).1 = .error (.rejected reason) ↔
      node.rules.checkOn node.schedule chain.tip block = .error reason := by
  have offered := node.offer_accept chain block
  generalize node.accept chain block = result at offered
  cases offered with
  | refused found fault =>
    rw [fault]
    constructor
    · intro same
      cases same
      rfl
    · intro same
      cases same
      rfl
  | joined passed | retargeted passed | stuck passed =>
    rw [passed]
    constructor
    · intro refused
      exact nomatch refused
    · intro refused
      exact nomatch refused

private theorem auditFrom_concat (sound : (parent :: blocks).IsChain node.Follows) :
    node.auditFrom parent (blocks ++ [block]) =
      (node.rules.checkOn node.schedule (blocks.getLast?.getD parent) block).mapError
        (.auditFailed block.height) := by
  induction blocks generalizing parent with
  | nil =>
    show node.auditFrom parent [block] = (node.rules.checkOn node.schedule parent block).mapError _
    rw [auditFrom]
    cases node.rules.checkOn node.schedule parent block with
    | error reason => rfl
    | ok => rfl
  | cons next rest ih =>
    obtain ⟨follows, sound⟩ := List.isChain_cons_cons.mp sound
    have passed : node.rules.checkOn node.schedule parent next = .ok () := follows
    rw [List.cons_append, auditFrom, passed]
    show node.auditFrom next (rest ++ [block]) = _
    rw [ih sound, List.getLast?_cons, Option.getD_some]

private theorem audit_push (sound : node.audit chain = .ok ()) :
    node.audit (chain.push block) =
      (node.rules.checkOn node.schedule chain.tip block).mapError (.auditFailed block.height) :=
  auditFrom_concat (audit_eq_ok_iff.mp sound)

private theorem audit_push_eq_error_iff (sound : node.audit chain = .ok ()) :
    node.audit (chain.push block) = .error (.auditFailed block.height reason) ↔
      node.rules.checkOn node.schedule chain.tip block = .error reason := by
  rw [audit_push sound]
  cases node.rules.checkOn node.schedule chain.tip block with
  | ok => simp only [Except.mapError, reduceCtorEq]
  | error found => simp only [Except.mapError, Except.error.injEq, Failure.auditFailed.injEq, true_and]

private theorem auditFrom_eq_error_iff :
    node.auditFrom parent blocks = .error failure ↔
      ∃ front block back reason, blocks = front ++ block :: back ∧
        (parent :: front).IsChain node.Follows ∧
        node.rules.checkOn node.schedule (front.getLast?.getD parent) block = .error reason ∧
        failure = .auditFailed block.height reason := by
  induction blocks generalizing parent with
  | nil =>
    constructor
    · intro failed
      cases failed
    · rintro ⟨front, block, back, reason, split, -⟩
      exact absurd split.symm (List.append_ne_nil_of_right_ne_nil _ (List.cons_ne_nil _ _))
  | cons next rest ih =>
    rw [auditFrom]
    cases verdict : node.rules.checkOn node.schedule parent next with
    | error found =>
      constructor
      · intro failed
        cases failed
        exact ⟨[], next, rest, found, rfl, .singleton parent, verdict, rfl⟩
      · rintro ⟨front, block, back, reason, split, sound, fault, rfl⟩
        cases front with
        | nil =>
          cases split
          cases verdict.symm.trans fault
          rfl
        | cons first front =>
          cases split
          have passed := (List.isChain_cons_cons.mp sound).1
          cases verdict.symm.trans passed
    | ok =>
      show node.auditFrom next rest = .error failure ↔ _
      rw [ih]
      constructor
      · rintro ⟨front, block, back, reason, rfl, sound, fault, named⟩
        refine ⟨next :: front, block, back, reason, rfl, ?_, ?_, named⟩
        · exact List.isChain_cons_cons.mpr ⟨verdict, sound⟩
        · rw [List.getLast?_cons, Option.getD_some]
          exact fault
      · rintro ⟨front, block, back, reason, split, sound, fault, named⟩
        cases front with
        | nil =>
          cases split
          cases verdict.symm.trans fault
        | cons first front =>
          cases split
          rw [List.getLast?_cons, Option.getD_some] at fault
          exact ⟨front, block, back, reason, rfl, sound.tail, fault, named⟩

end Node

namespace Race

variable {α : Type} {race : Race α} {state : RaceState α} {block : Block} {rest : List Block}
  {reason : Rejection}

private theorem receive_eq_skip_iff (unsettled : state.settled = none) (looks : state.receiving = true)
    (waits : state.channel = block :: rest) :
    race.move? state .receive =
        some { state with channel := rest, skipped := state.skipped ++ [(block, reason)] } ↔
      race.verdict block = .error reason := by
  have taken : race.move? state .receive = race.receive? state := by
    simp [move?, unsettled, looks]
  rw [taken, receive?, waits]
  dsimp only
  cases race.verdict block with
  | ok =>
    constructor
    · intro same
      -- a block that wins settles the race, one that is passed over does not
      have settles := congrArg RaceState.settled (Option.some.inj same)
      exact nomatch unsettled.symm.trans settles.symm
    · intro refused
      exact nomatch refused
  | error found =>
    constructor
    · intro same
      have noted := congrArg RaceState.skipped (Option.some.inj same)
      have entries := List.append_cancel_left noted
      cases entries
      rfl
    · intro refused
      cases refused
      rfl

end Race

namespace Node

/-- On a chain that passes the audit, a block is rejected for a reason exactly if the audit of the chain
with the block at its end fails at the block for that reason, and exactly if a race for the tip that takes
the block out passes it over for that reason. The audit of any chain passes exactly if each block stands
on the one before and passes the check, and otherwise names the first that does not, with its fault. -/
theorem verdicts_agree (node : Node) :
    (∀ chain, node.audit chain = .ok () → ∀ block reason,
      ((node.accept chain block).1 = .error (.rejected reason) ↔
        node.audit (chain.push block) = .error (.auditFailed block.height reason)) ∧
      ∀ now requests state rest, state.settled = none → state.receiving = true →
        state.channel = block :: rest →
        ((node.accept chain block).1 = .error (.rejected reason) ↔
          (node.raceFor now chain.tip requests).move? state .receive =
            some { state with channel := rest, skipped := state.skipped ++ [(block, reason)] })) ∧
    (∀ chain, node.audit chain = .ok () ↔
      chain.blocks.IsChain fun parent block =>
        block.checkExtends parent = .ok () ∧ node.rules.check node.schedule block = .ok ()) ∧
    ∀ chain failure, node.audit chain = .error failure ↔
      ∃ front block back reason, chain.accepted = front ++ block :: back ∧
        node.audit ⟨chain.genesis, front⟩ = .ok () ∧
        (block.checkExtends (Chain.mk chain.genesis front).tip = .error reason ∨
          block.checkExtends (Chain.mk chain.genesis front).tip = .ok () ∧
            node.rules.check node.schedule block = .error reason) ∧
        failure = .auditFailed block.height reason := by
  refine ⟨?_, ?_, ?_⟩
  · intro chain sound block reason
    rw [accept_eq_rejected_iff]
    refine ⟨(audit_push_eq_error_iff sound).symm, ?_⟩
    intro now requests state rest unsettled looks waits
    show (node.raceFor now chain.tip requests).verdict block = .error reason ↔ _
    exact (Race.receive_eq_skip_iff unsettled looks waits).symm
  · intro chain
    rw [audit_eq_ok_iff]
    have same : node.Follows = fun parent block =>
        block.checkExtends parent = .ok () ∧ node.rules.check node.schedule block = .ok () := by
      funext parent block
      exact propext Rules.checkOn_eq_ok_iff
    rw [same]
  · intro chain failure
    simp only [audit_eq_ok_iff, ← Rules.checkOn_eq_error_iff]
    exact auditFrom_eq_error_iff

/-- A block whose proof is not marked as final is refused by its delay in all three places. -/
theorem verdicts_agree_on_unmarked :
    ∃ (node : Node) (block : Block) (state : RaceState (Except Failure MinedBlock)),
      let chain := Chain.ofGenesis Block.genesis
      node.audit chain = .ok () ∧
      (node.accept chain block).1 = .error (.rejected (.delay .missingProof)) ∧
      node.audit (chain.push block) = .error (.auditFailed 1 (.delay .missingProof)) ∧
      (node.raceFor 0 chain.tip []).move? state .receive =
        some { state with channel := [], skipped := [(block, .delay .missingProof)] } := by
  let node : Node := .rehearsal (.constant 1)
  let chain : Chain := .ofGenesis Block.genesis
  let block : Block :=
    { (node.produced? Block.genesis).getD Block.genesis with finalized := false }
  let state : RaceState (Except Failure MinedBlock) := { RaceState.start with channel := [block] }
  have judged : block.height = 1 ∧
      (node.accept chain block).1 = .error (.rejected (.delay .missingProof)) := by
    decide +kernel
  obtain ⟨height, refused⟩ := judged
  obtain ⟨audited, raced⟩ := (verdicts_agree node).1 chain rfl block (.delay .missingProof)
  refine ⟨node, block, state, rfl, refused, ?_, ?_⟩
  · rw [← height]
    exact audited.mp refused
  · exact (raced 0 [] state [] rfl rfl rfl).mp refused

end Node

end DelayChain
