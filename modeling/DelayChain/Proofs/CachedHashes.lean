import DelayChain.Mining.Proposal
import DelayChain.Proofs.Preimages
import DelayChain.Proofs.Proposal
import DelayChain.Proofs.RequestBinding

/-!
# Hashes that a block carries

A block carries its block hash and, once it is sealed, its work hash. Requests are added to it, it is
mined and gets a proof, in any order and with any outcome. Adding requests and attaching proofs takes the
block hash again, but a search that is called off leaves another nonce under the old hashes, a search that
is won on a block with a proof leaves a block hash that does not cover the proof, and a request added to a
sealed block leaves the old work hash. Main statement: along any edits both hashes are those of the
contents exactly as long as none of these happens.
-/

set_option autoImplicit false
set_option relaxedAutoImplicit false

namespace DelayChain

namespace Block

/-- What is done to a block before it joins a chain. -/
inductive Edit where
  | add (request : Request) (max : Nat)
  | mine (flag : UInt64 → Bool)
  | attach (proof : Delay.Proof)

/-- The block behind an edit, also where the edit fails. There is none behind a search that does not
end. -/
def edit? (block : Block) : Edit → Option Block
  | .add request max =>
    match block.addRequest request max with
    | .ok next => some next
    | .error _ => some block
  | .mine flag =>
    match block.mine Hasher.sha256 flag with
    | (.error .exhausted, _) => none
    | (_, next) => some next
  | .attach proof => some (block.attach proof Hasher.sha256)

/-- The blocks behind one edit after another. -/
def trace? (block : Block) : List Edit → Option (List Block)
  | [] => some []
  | edit :: rest =>
    (block.edit? edit).bind fun next => (next.trace? rest).map fun blocks => next :: blocks

/-- The block hash is that of the contents. -/
def HashFresh (block : Block) : Prop := block.hash = block.computeHash Hasher.sha256

/-- The work hash, if there is one, is that of the contents. -/
def WorkHashFresh (block : Block) : Prop :=
  ∀ workHash, block.workHash = some workHash → workHash = block.computeWorkHash Hasher.sha256

/-- The edit is no search that is won on a block with a proof, or called off at another nonce than that
of the block. -/
def KeepsHash (block : Block) : Edit → Prop
  | .add _ _ | .attach _ => True
  | .mine flag =>
    match block.search Hasher.sha256 flag with
    | .won _ _ => block.proof = none
    | .cancelled nonce => nonce = block.nonce
    | .exhausted => True

/-- The edit adds no request to a sealed block, and is no search on a sealed block that is called off at
another nonce than that of the block. -/
def KeepsWorkHash (block : Block) : Edit → Prop
  | .add _ max => block.IsFull max ∨ block.workHash = none
  | .mine flag =>
    match block.search Hasher.sha256 flag with
    | .won _ _ | .exhausted => True
    | .cancelled nonce => nonce = block.nonce ∨ block.workHash = none
  | .attach _ => True

/-- One of the texts that are hashed for two blocks has one digest with its counterpart, or the two texts
of the second block have one digest. -/
def Collides (block next : Block) : Prop :=
  Hash.Sha256.Collide block.requestsPreimage next.requestsPreimage ∨
    Hash.Sha256.Collide block.workPreimage next.workPreimage ∨
    Hash.Sha256.Collide block.preimage next.preimage ∨
    Hash.Sha256.Collide next.workPreimage next.preimage

/-- What an edit makes of a block. -/
inductive Edited (block : Block) : Edit → Block → Prop
  | full (request : Request) (max : Nat) (full : block.IsFull max) :
      Edited block (.add request max) block
  | added (request : Request) (max : Nat) (room : ¬block.IsFull max) :
      Edited block (.add request max)
        (rehash { block with requests := block.requests ++ [request] } Hasher.sha256)
  | won (flag : UInt64 → Bool) (nonce : UInt64) (digest : String)
      (found : block.search Hasher.sha256 flag = .won nonce digest)
      (computed : digest = { block with nonce }.computeWorkHash Hasher.sha256) :
      Edited block (.mine flag) ({ block with nonce }.sealWith digest)
  | calledOff (flag : UInt64 → Bool) (nonce : UInt64)
      (tried : block.search Hasher.sha256 flag = .cancelled nonce) :
      Edited block (.mine flag) { block with nonce }
  | attached (proof : Delay.Proof) :
      Edited block (.attach proof) (block.attach proof Hasher.sha256)

variable {block next start : Block} {edit : Edit} {edits : List Edit} {blocks : List Block}
  {flag : UInt64 → Bool} {nonce : UInt64} {digest : String}

private theorem edit?_of_won (found : block.search Hasher.sha256 flag = .won nonce digest) :
    block.edit? (.mine flag) = some ({ block with nonce }.sealWith digest) := by
  rw [edit?, mine, found]

private theorem edit?_of_cancelled (tried : block.search Hasher.sha256 flag = .cancelled nonce) :
    block.edit? (.mine flag) = some { block with nonce } := by
  rw [edit?, mine, tried]

private theorem keepsHash_iff_of_won (found : block.search Hasher.sha256 flag = .won nonce digest) :
    block.KeepsHash (.mine flag) ↔ block.proof = none := by
  rw [KeepsHash, found]

private theorem keepsHash_iff_of_cancelled
    (tried : block.search Hasher.sha256 flag = .cancelled nonce) :
    block.KeepsHash (.mine flag) ↔ nonce = block.nonce := by
  rw [KeepsHash, tried]

private theorem keepsWorkHash_of_won (found : block.search Hasher.sha256 flag = .won nonce digest) :
    block.KeepsWorkHash (.mine flag) := by
  rw [KeepsWorkHash, found]
  trivial

private theorem keepsWorkHash_iff_of_cancelled
    (tried : block.search Hasher.sha256 flag = .cancelled nonce) :
    block.KeepsWorkHash (.mine flag) ↔ nonce = block.nonce ∨ block.workHash = none := by
  rw [KeepsWorkHash, tried]

private theorem edited_of_edit? (led : block.edit? edit = some next) : Edited block edit next := by
  cases edit with
  | add request max =>
    by_cases full : block.IsFull max
    · rw [edit?, addRequest, if_pos full] at led
      cases led
      exact .full request max full
    · rw [edit?, addRequest, if_neg full] at led
      cases led
      exact .added request max full
  | mine flag =>
    cases searched : block.search Hasher.sha256 flag with
    | won nonce digest =>
      rw [edit?_of_won searched] at led
      cases led
      exact .won flag nonce digest searched (Search.of_from_eq_won searched).1
    | cancelled nonce =>
      rw [edit?_of_cancelled searched] at led
      cases led
      exact .calledOff flag nonce searched
    | exhausted =>
      rw [edit?, mine, searched] at led
      exact nomatch led
  | attach proof =>
    cases led
    exact .attached proof

private theorem workPreimage_ne_preimage {proof : Delay.Proof} (attached : block.proof = some proof) :
    block.workPreimage ≠ block.preimage := by
  intro same
  have lengths := congrArg (fun text => text.toList.length) same
  simp only [toList_preimage attached, List.length_append, List.length_cons] at lengths
  omega

private theorem requestsPreimage_ne_of_added (block : Block) (request : Request) :
    block.requestsPreimage ≠
      { block with requests := block.requests ++ [request] }.requestsPreimage := by
  intro same
  have lengths := congrArg (fun text => text.toList.length) same
  simp only [toList_requestsPreimage, Request.lines_concat, List.length_append, List.length_cons]
    at lengths
  omega

private theorem workPreimage_ne_of_nonce (other : nonce ≠ block.nonce) :
    block.workPreimage ≠ { block with nonce }.workPreimage := by
  intro same
  exact other (workPreimage_eq_iff.mp same).2.2.1.symm

private theorem preimage_ne_of_nonce (other : nonce ≠ block.nonce) :
    block.preimage ≠ { block with nonce }.preimage := by
  intro same
  exact workPreimage_ne_of_nonce other (preimage_eq_iff.mp same).1

private theorem preimage_rehash (block : Block) (hasher : Hasher) :
    (block.rehash hasher).preimage = block.preimage := rfl

private theorem hashFresh_rehash (block : Block) : (block.rehash Hasher.sha256).HashFresh := by
  rw [HashFresh, computeHash, preimage_rehash]
  rfl

private theorem hashFresh_of_keeps (edited : Edited block edit next) (fresh : block.HashFresh)
    (keeps : block.KeepsHash edit) : next.HashFresh := by
  cases edited with
  | full request max full => exact fresh
  | added request max room => exact hashFresh_rehash _
  | won flag nonce digest found computed =>
    have plain : ({ block with nonce }.sealWith digest).proof = none :=
      (keepsHash_iff_of_won found).mp keeps
    rw [HashFresh, computeHash, preimage, plain]
    exact computed
  | calledOff flag nonce tried =>
    obtain rfl := (keepsHash_iff_of_cancelled tried).mp keeps
    exact fresh
  | attached proof => exact hashFresh_rehash _

private theorem keeps_of_hashFresh (edited : Edited block edit next) (fresh : block.HashFresh)
    (fresh' : next.HashFresh) : block.KeepsHash edit ∨ block.Collides next := by
  cases edited with
  | full request max full => exact .inl trivial
  | added request max room => exact .inl trivial
  | won flag nonce digest found computed =>
    rw [keepsHash_iff_of_won found]
    rcases Option.eq_none_or_eq_some block.proof with plain | ⟨proof, attached⟩
    · exact .inl plain
    · have same : Hasher.sha256 ({ block with nonce }.sealWith digest).workPreimage =
          Hasher.sha256 ({ block with nonce }.sealWith digest).preimage := computed.symm.trans fresh'
      have differ : ({ block with nonce }.sealWith digest).workPreimage ≠
          ({ block with nonce }.sealWith digest).preimage := workPreimage_ne_preimage attached
      exact .inr (.inr (.inr (.inr (Hash.Sha256.collide_of_ne differ same))))
  | calledOff flag nonce tried =>
    rw [keepsHash_iff_of_cancelled tried]
    by_cases other : nonce = block.nonce
    · exact .inl other
    · have same : Hasher.sha256 block.preimage = Hasher.sha256 { block with nonce }.preimage :=
        fresh.symm.trans fresh'
      have collide := Hash.Sha256.collide_of_ne (preimage_ne_of_nonce other) same
      exact .inr (.inr (.inr (.inl collide)))
  | attached proof => exact .inl trivial

private theorem workHashFresh_of_keeps (edited : Edited block edit next) (fresh : block.WorkHashFresh)
    (keeps : block.KeepsWorkHash edit) : next.WorkHashFresh := by
  cases edited with
  | full request max full => exact fresh
  | added request max room =>
    intro workHash holds
    rcases keeps with full | bare
    · exact absurd full room
    · exact nomatch bare.symm.trans holds
  | won flag nonce digest found computed =>
    intro workHash holds
    rw [← Option.some.inj holds]
    exact computed
  | calledOff flag nonce tried =>
    rcases (keepsWorkHash_iff_of_cancelled tried).mp keeps with rfl | bare
    · exact fresh
    · intro workHash holds
      exact nomatch bare.symm.trans holds
  | attached proof => exact fresh

private theorem keeps_of_workHashFresh (edited : Edited block edit next) (fresh : block.WorkHashFresh)
    (fresh' : next.WorkHashFresh) : block.KeepsWorkHash edit ∨ block.Collides next := by
  cases edited with
  | full request max full => exact .inl (.inl full)
  | added request max room =>
    cases bare : block.workHash with
    | none => exact .inl (.inr bare)
    | some workHash =>
      have same : Hasher.sha256 block.workPreimage =
          Hasher.sha256 { block with requests := block.requests ++ [request] }.workPreimage :=
        (fresh workHash bare).symm.trans (fresh' workHash bare)
      rcases Hash.Sha256.eq_or_collide same with works | collide
      · -- the same text holds the same commitment, though not to the same requests
        have collide := Hash.Sha256.collide_of_ne (block.requestsPreimage_ne_of_added request)
          (workPreimage_eq_iff.mp works).2.1
        exact .inr (.inl collide)
      · exact .inr (.inr (.inl collide))
  | won flag nonce digest found computed => exact .inl (keepsWorkHash_of_won found)
  | calledOff flag nonce tried =>
    rw [keepsWorkHash_iff_of_cancelled tried]
    by_cases other : nonce = block.nonce
    · exact .inl (.inl other)
    cases bare : block.workHash with
    | none => exact .inl (.inr rfl)
    | some workHash =>
      have same : Hasher.sha256 block.workPreimage =
          Hasher.sha256 { block with nonce }.workPreimage :=
        (fresh workHash bare).symm.trans (fresh' workHash bare)
      have collide := Hash.Sha256.collide_of_ne (workPreimage_ne_of_nonce other) same
      exact .inr (.inr (.inl collide))
  | attached proof => exact .inl trivial

private theorem exists_of_trace?_cons {rest : List Edit}
    (traced : block.trace? (edit :: rest) = some blocks) :
    ∃ next behind, Edited block edit next ∧ next.trace? rest = some behind ∧
      blocks = next :: behind := by
  obtain ⟨next, led, mapped⟩ := Option.bind_eq_some_iff.mp traced
  obtain ⟨behind, further, rfl⟩ := Option.map_eq_some_iff.mp mapped
  exact ⟨next, behind, edited_of_edit? led, further, rfl⟩

private theorem forall_fresh_of_keeps {Fresh : Block → Prop} {Keeps : Block → Edit → Prop}
    (step : ∀ {block edit next}, Edited block edit next → Fresh block → Keeps block edit → Fresh next)
    (traced : start.trace? edits = some blocks) (fresh : Fresh start)
    (keeps : ∀ taken ∈ (start :: blocks).zip edits, Keeps taken.1 taken.2) :
    ∀ block ∈ start :: blocks, Fresh block := by
  induction edits generalizing start blocks with
  | nil =>
    cases traced
    exact List.forall_mem_singleton.mpr fresh
  | cons edit rest ih =>
    obtain ⟨next, behind, edited, further, rfl⟩ := exists_of_trace?_cons traced
    obtain ⟨first, others⟩ := List.forall_mem_cons.mp keeps
    exact List.forall_mem_cons.mpr ⟨fresh, ih further (step edited fresh first) others⟩

private theorem forall_keeps_of_fresh {Fresh : Block → Prop} {Keeps : Block → Edit → Prop}
    (step : ∀ {block edit next}, Edited block edit next → Fresh block → Fresh next →
      Keeps block edit ∨ block.Collides next)
    (traced : start.trace? edits = some blocks) (fresh : ∀ block ∈ start :: blocks, Fresh block) :
    (∀ taken ∈ (start :: blocks).zip edits, Keeps taken.1 taken.2) ∨
      ∃ pair ∈ (start :: blocks).zip blocks, pair.1.Collides pair.2 := by
  induction edits generalizing start blocks with
  | nil =>
    left
    simp
  | cons edit rest ih =>
    obtain ⟨next, behind, edited, further, rfl⟩ := exists_of_trace?_cons traced
    obtain ⟨first, others⟩ := List.forall_mem_cons.mp fresh
    rcases step edited first (others next List.mem_cons_self) with keeps | collides
    · rcases ih further others with kept | ⟨pair, member, collides⟩
      · exact .inl (List.forall_mem_cons.mpr ⟨keeps, kept⟩)
      · exact .inr ⟨pair, List.mem_cons_of_mem _ member, collides⟩
    · exact .inr ⟨(start, next), List.mem_cons_self, collides⟩

private theorem workHashFresh_candidate (height : UInt64) (parent : Option String)
    (requests : List Request) (difficulty : UInt32) (timestamp : Int64) :
    (candidate height parent requests difficulty timestamp).WorkHashFresh := by
  intro workHash holds
  exact nomatch holds

/-- Along any edits of a new block, the block hash is that of the contents if no search is won on a block
with a proof or called off at another nonce than that of the block. The work hash is that of the contents
if no request is added to a sealed block and no search on one is called off at another nonce. Only so are
they, unless texts that are hashed for two blocks in succession collide. -/
theorem hashes_fresh_along (height : UInt64) (parent : Option String) (requests : List Request)
    (difficulty : UInt32) (timestamp : Int64) (edits : List Edit) (blocks : List Block)
    (traced : (candidate height parent requests difficulty timestamp).trace? edits = some blocks) :
    let start := candidate height parent requests difficulty timestamp
    let steps := (start :: blocks).zip edits
    (((∀ step ∈ steps, step.1.KeepsHash step.2) → ∀ block ∈ start :: blocks, block.HashFresh) ∧
      ((∀ step ∈ steps, step.1.KeepsWorkHash step.2) →
        ∀ block ∈ start :: blocks, block.WorkHashFresh)) ∧
    (((∀ block ∈ start :: blocks, block.HashFresh) → ∀ step ∈ steps, step.1.KeepsHash step.2) ∧
      ((∀ block ∈ start :: blocks, block.WorkHashFresh) →
        ∀ step ∈ steps, step.1.KeepsWorkHash step.2) ∨
      ∃ pair ∈ (start :: blocks).zip blocks, pair.1.Collides pair.2) := by
  intro start steps
  have fresh : start.HashFresh := hashFresh_rehash _
  have fresh' : start.WorkHashFresh :=
    workHashFresh_candidate height parent requests difficulty timestamp
  refine ⟨⟨forall_fresh_of_keeps hashFresh_of_keeps traced fresh,
    forall_fresh_of_keeps workHashFresh_of_keeps traced fresh'⟩, ?_⟩
  by_cases collides : ∃ pair ∈ (start :: blocks).zip blocks, pair.1.Collides pair.2
  · exact .inr collides
  · left
    constructor
    · intro all
      exact (forall_keeps_of_fresh keeps_of_hashFresh traced all).resolve_right collides
    · intro all
      exact (forall_keeps_of_fresh keeps_of_workHashFresh traced all).resolve_right collides

private theorem collide_of_collides (plain : block.proof = none) (plain' : next.proof = none)
    (same : block.requests = next.requests) (collides : block.Collides next) :
    Hash.Sha256.Collide block.workPreimage next.workPreimage := by
  rw [Collides, preimage, preimage, plain, plain', requestsPreimage, requestsPreimage, same] at collides
  rcases collides with ⟨differ, -⟩ | works | works | ⟨differ, -⟩
  · exact absurd rfl differ
  · exact works
  · exact works
  · exact absurd rfl differ

/-- A block that is sealed under nonce one and searched again, with the search called off at once, stands
at nonce zero under both hashes of nonce one. -/
theorem hashes_fresh_along_search_called_off :
    ∃ (edits : List Edit) (first second : Block),
      (candidate 1 (some "h") [] 1 0).trace? edits = some [first, second] ∧
      (first.nonce = 1 ∧ first.HashFresh ∧ first.WorkHashFresh) ∧
      second.nonce = 0 ∧ ¬second.HashFresh ∧ ¬second.WorkHashFresh := by
  obtain ⟨start, origin⟩ : ∃ start, start = candidate 1 (some "h") [] 1 0 := ⟨_, rfl⟩
  let digest (nonce : UInt64) : String :=
    Hasher.sha256 (start.workPreimageAt start.requestsHash nonce)
  let first : Block := { start with nonce := 1 }.sealWith (digest 1)
  let second : Block := { first with nonce := 0 }
  let edits : List Edit := [.mine fun _ => false, .mine fun _ => true]
  have plain : start.proof = none := by rw [origin]; rfl
  have untried : start.nonce = 0 := by rw [origin]; rfl
  have lost : ¬Hasher.Meets (digest 0) start.difficulty := by
    subst origin
    decide +kernel
  have met : Hasher.Meets (digest 1) start.difficulty := by
    subst origin
    decide +kernel
  have fresh : start.HashFresh ∧ start.WorkHashFresh := by
    rw [origin]
    exact ⟨hashFresh_rehash _, workHashFresh_candidate 1 (some "h") [] 1 0⟩
  have won : start.search Hasher.sha256 (fun _ => false) = .won 1 (digest 1) :=
    (Search.from_eq_next lost rfl (by decide)).trans (Search.from_eq_won met)
  have calledOff : first.search Hasher.sha256 (fun _ => true) = .cancelled 0 :=
    Search.from_eq_cancelled lost rfl
  have step : start.edit? (.mine fun _ => false) = some first := edit?_of_won won
  have step' : first.edit? (.mine fun _ => true) = some second := edit?_of_cancelled calledOff
  have traced : start.trace? edits = some [first, second] := by
    rw [trace?, step, Option.bind_some, trace?, step']
    rfl
  have sealed : first.HashFresh ∧ first.WorkHashFresh := by
    have edited := edited_of_edit? step
    exact ⟨hashFresh_of_keeps edited fresh.1 ((keepsHash_iff_of_won won).mpr plain),
      workHashFresh_of_keeps edited fresh.2 (keepsWorkHash_of_won won)⟩
  have apart : ¬∃ pair ∈ [(start, first), (first, second)], pair.1.Collides pair.2 := by
    have differ : digest 0 ≠ digest 1 := by
      intro same
      rw [same] at lost
      exact lost met
    have work : Hasher.sha256 start.workPreimage = digest 0 := by
      rw [workPreimage, untried]
    rintro ⟨pair, member, collides⟩
    rcases List.mem_pair.mp member with rfl | rfl
    · have works : Hash.Sha256.Collide start.workPreimage first.workPreimage :=
        collide_of_collides plain plain rfl collides
      exact differ (work.symm.trans works.hex_eq)
    · have works : Hash.Sha256.Collide first.workPreimage second.workPreimage :=
        collide_of_collides plain plain rfl collides
      exact differ works.hex_eq.symm
  have along := hashes_fresh_along 1 (some "h") [] 1 0 edits [first, second]
  rw [← origin] at along ⊢
  refine ⟨edits, first, second, traced, ⟨rfl, sealed⟩, rfl, ?_⟩
  have taken : (first, .mine fun _ => true) ∈ (start :: [first, second]).zip edits :=
    List.mem_cons_of_mem _ List.mem_cons_self
  have other : (0 : UInt64) ≠ 1 := by decide
  obtain ⟨-, ⟨hashes, workHashes⟩ | collides⟩ := along traced
  · constructor
    · intro held
      have keeps := hashes (by simp [fresh.1, sealed.1, held]) _ taken
      exact other ((keepsHash_iff_of_cancelled calledOff).mp keeps)
    · intro held
      have keeps := workHashes (by simp [fresh.2, sealed.2, held]) _ taken
      rcases (keepsWorkHash_iff_of_cancelled calledOff).mp keeps with same | bare
      · exact other same
      · exact Option.some_ne_none _ bare
  · exact absurd collides apart

end Block

end DelayChain
