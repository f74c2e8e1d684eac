import DelayChain.Proofs.RequestCap

/-!
# Repeated requests

Where senders are registered, every request on the chain carries a signature of its sender. It is checked
by itself: neither the other requests of the block nor those that the chain holds are looked at, and no
check reads the sender's count. So a request that was taken once is taken again, in the same block and in
later ones.
-/

set_option autoImplicit false
set_option relaxedAutoImplicit false

namespace DelayChain

/-- The requests of the accepted blocks, in order. -/
def Chain.requests (chain : Chain) : List Request := chain.accepted.flatMap (·.requests)

/-- What should tell a request from every other. -/
def Request.mark (request : Request) : UInt32 × UInt64 := (request.sender, request.sequence)

namespace Chain

variable {chain : Chain} {block : Block}

private theorem requests_push : (chain.push block).requests = chain.requests ++ block.requests := by
  unfold requests push
  rw [List.flatMap_append, List.flatMap_singleton]

private theorem not_nodup_mark_of_repeated {requests : List Request} {request : Request}
    (member : request ∈ requests)
    (repeated : request ∈ chain.requests ∨ 2 ≤ requests.count request) :
    ¬((chain.requests ++ requests).map Request.mark).Nodup := by
  intro nodup
  have once := List.nodup_iff_count_le_one.mp (List.Nodup.of_map _ nodup) request
  rw [List.count_append] at once
  have here := List.one_le_count_iff.mpr member
  rcases repeated with before | twice
  · have there := List.one_le_count_iff.mpr before
    omega
  · omega

end Chain

namespace Rules

variable {rules : Rules} {schedule : Schedule} {parent block : Block} {keys : Registry}

private theorem checkOn_eq_ok_iff_of_senders (senders : rules.senders = some keys) :
    rules.checkOn schedule parent block = .ok () ↔
      (∀ request ∈ block.requests, keys.check request = .ok ()) ∧
        { rules with senders := none }.checkOn schedule parent block = .ok () := by
  have requests : rules.checkRequests block = .ok () ↔
      ∀ request ∈ block.requests, keys.check request = .ok () := by
    rw [checkRequests, senders]
    exact Block.checkRequests_eq_ok_iff
  have free : { rules with senders := none }.checkRequests block = .ok () := rfl
  rw [checkOn_eq_ok_iff, checkOn_eq_ok_iff, check_eq_ok_iff, check_eq_ok_iff, requests]
  constructor
  · rintro ⟨standing, work, hash, passed, delay⟩
    exact ⟨passed, standing, work, hash, free, delay⟩
  · rintro ⟨passed, standing, work, hash, -, delay⟩
    exact ⟨standing, work, hash, passed, delay⟩

end Rules

namespace Session

variable {session : Session} {keys : Registry} {block : Block}

private theorem Sound.check_of_mem_requests (sound : session.Sound)
    (senders : session.node.rules.senders = some keys) {request : Request}
    (member : request ∈ session.chain.requests) : keys.check request = .ok () := by
  obtain ⟨block, accepted, holds⟩ := List.mem_flatMap.mp member
  obtain ⟨parent, follows⟩ := Chain.exists_parent_of_mem sound.linked accepted
  obtain ⟨passed, -⟩ := (Rules.checkOn_eq_ok_iff_of_senders senders).mp follows
  exact passed request holds

private theorem accept_eq_ok_iff (paced : session.Paced)
    (timely : ¬session.node.AcceptanceOverflows session.chain block) :
    (session.node.accept session.chain block).1 = .ok () ↔
      session.node.rules.checkOn session.node.schedule session.chain.tip block = .ok () := by
  constructor
  · intro accepted
    cases verdict : session.node.rules.checkOn session.node.schedule session.chain.tip block with
    | error reason =>
      rw [Node.accept_of_checkOn_eq_error verdict] at accepted
      exact nomatch accepted
    | ok => rfl
  · intro passed
    exact (paced.accept timely passed).1

/-- Every request on the chain has passed the check against its sender's key. Of the requests of a block
nothing more is asked than that each of them passes by itself, so a block made of requests that do
joins: where one of them stands on the chain already, or twice in the block, its sender's count stands
there twice. -/
theorem requests_checked_alone {rules : Rules} (senders : rules.senders = some keys)
    (adjuster : Difficulty.Adjuster) (maxRequests : Nat) (initial : UInt32) (genesis : Block)
    {operations : List Operation} {session : Session}
    (ran : (start (.start rules adjuster maxRequests (.constant initial)) genesis).run? operations =
      some session) :
    let node := session.node
    let chain := session.chain
    (∀ request ∈ chain.requests, keys.check request = .ok ()) ∧
    (∀ block, ¬node.AcceptanceOverflows chain block →
      ((node.accept chain block).1 = .ok () ↔
        (∀ request ∈ block.requests, keys.check request = .ok ()) ∧
          { rules with senders := none }.checkOn node.schedule chain.tip block = .ok ())) ∧
    ∀ cap now later requests block maker,
      (∀ request ∈ requests, keys.check request = .ok ()) →
      (node.withCap cap).make now later chain.tip requests = (.ok block, maker) →
      ¬node.AcceptanceOverflows chain block →
        (node.accept chain block).1 = .ok () ∧
        (node.accept chain block).2.2.requests = chain.requests ++ requests ∧
        ∀ request ∈ requests, request ∈ chain.requests ∨ 2 ≤ requests.count request →
          ¬((node.accept chain block).2.2.requests.map Request.mark).Nodup := by
  intro node chain
  let first : Node := .start rules adjuster maxRequests (.constant initial)
  have holdsTo : node.rules = rules := ((settled_start first genesis).run ran).rules
  have registered : node.rules.senders = some keys := by
    rw [holdsTo]
    exact senders
  have started : (start first genesis).Paced := paced_start rfl genesis
  have paced : session.Paced := holds_of_run? Paced.of_agrees Paced.offer started ran
  have sound : session.Sound := (sound_start first genesis).run ran
  refine ⟨fun request member => sound.check_of_mem_requests registered member, ?_, ?_⟩
  · intro block timely
    rw [← holdsTo]
    exact (accept_eq_ok_iff paced timely).trans (Rules.checkOn_eq_ok_iff_of_senders registered)
  · intro cap now later requests block maker passed made timely
    have covered : node.rules.Covers requests := by
      intro keys' known
      cases known.symm.trans registered
      exact passed
    obtain ⟨holds, verdict, grown⟩ := accept_of_made_withCap paced covered made timely
    have listed : (node.accept chain block).2.2.requests = chain.requests ++ requests := by
      rw [← holds, ← Chain.requests_push]
      exact congrArg Chain.requests grown
    refine ⟨verdict, listed, ?_⟩
    intro request member repeated
    rw [listed]
    exact chain.not_nodup_mark_of_repeated member repeated

/-- One signed payment stands in two blocks of a chain. -/
theorem accept_of_payment_again :
    ∃ (keys : Registry) (rules : Rules) (operations : List Operation) (session : Session)
      (block : Block), rules.senders = some keys ∧
      (start (.start rules (.of 2 600 4) 3 (.constant 1)) Block.genesis).run? operations =
        some session ∧
      session.chain.requests.map (·.operation) = ["pay 3"] ∧
      (session.node.accept session.chain block).1 = .ok () ∧
      (session.node.accept session.chain block).2.2.requests.map (·.operation) =
        ["pay 3", "pay 3"] ∧
      ¬((session.node.accept session.chain block).2.2.requests.map Request.mark).Nodup := by
  let keys : Registry :=
    .ofList [(7, "0279be667ef9dcbbac55a06295ce870b07029bfcdb2dce28d959f2815b16f81798")]
  let rules : Rules := { (Node.rehearsal (.constant 1)).rules with senders := some keys }
  let payment : Request := ⟨"1", 7, 0, "pay 3",
    "3044022079be667ef9dcbbac55a06295ce870b07029bfcdb2dce28d959f2815b16f81798" ++
      "022055b6eb3a9e1a354b8d0d79c108b774a14d2d8b46848252a2f2e73bed27a24b78"⟩
  let node : Node := .start rules (.of 2 600 4) 3 (.constant 1)
  let first : Block := (node.make 0 0 Block.genesis [payment]).1.toOption.getD Block.genesis
  have ran : ((start node Block.genesis).run? [.accept first]).map (fun session =>
      (session.chain.requests, session.chain.height,
        ((session.node.withCap 3).make 0 0 session.chain.tip [payment]).1.isOk)) =
      some ([payment], 1, true) := by decide +kernel
  obtain ⟨session, reached, state⟩ := Option.map_eq_some_iff.mp ran
  obtain ⟨listed, height, mined⟩ : session.chain.requests = [payment] ∧ session.chain.height = 1 ∧
      ((session.node.withCap 3).make 0 0 session.chain.tip [payment]).1.isOk = true := by
    simpa only [Prod.mk.injEq] using state
  cases made : (session.node.withCap 3).make 0 0 session.chain.tip [payment] with
  | mk result maker =>
    rw [made] at mined
    cases result with
    | error failure => exact absurd mined Bool.false_ne_true
    | ok block =>
      have timely : ¬session.node.AcceptanceOverflows session.chain block := by
        refine Node.not_acceptanceOverflows ?_ block
        rw [height]
        decide
      have senders : rules.senders = some keys := rfl
      obtain ⟨checked, -, joins⟩ :=
        requests_checked_alone senders (.of 2 600 4) 3 1 Block.genesis reached
      rw [listed] at checked
      obtain ⟨verdict, grown, twice⟩ := joins 3 0 0 [payment] block maker checked made timely
      have before : payment ∈ session.chain.requests := by
        rw [listed]
        exact List.mem_singleton.mpr rfl
      have both : (session.node.accept session.chain block).2.2.requests = [payment, payment] := by
        rw [grown, listed]
        rfl
      refine ⟨keys, rules, [.accept first], session, block, rfl, reached, ?_, verdict, ?_,
        twice payment (List.mem_singleton.mpr rfl) (.inl before)⟩
      · rw [listed]
        rfl
      · rw [both]
        rfl

end Session

end DelayChain
