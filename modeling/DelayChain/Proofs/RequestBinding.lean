import Mathlib.Data.List.Induction
import DelayChain.Node.Session
import DelayChain.Proofs.Checks
import DelayChain.Proofs.Text

/-!
# What the commitment to the requests binds

The commitment hashes the canonical lines of the requests one after another. A signature that can be
read holds neither colon nor line break, so the end of the text can be read from behind. What a line
break in an identifier stands for cannot: it makes two requests look like one, and no check looks at
identifiers. Every block with two requests or more thus passes with others under the same hashes.
-/

set_option autoImplicit false
set_option relaxedAutoImplicit false

namespace DelayChain

namespace Request

/-- What a sender asks for, without identifier and signature. -/
def content (request : Request) : UInt32 × UInt64 × String :=
  (request.sender, request.sequence, request.operation)

/-- The canonical line between identifier and signature. -/
def middle (request : Request) : List Char :=
  ':' :: ((toString request.sender.toNat).toList ++ ':' ::
    ((toString request.sequence.toNat).toList ++ ':' :: request.operation.toList))

/-- The text that a list of requests is committed to by, as characters. -/
def lines (requests : List Request) : List Char :=
  requests.flatMap fun request => request.canonical.toList ++ ['\n']

theorem toList_canonical (request : Request) :
    request.canonical.toList =
      request.id.toList ++ (request.middle ++ ':' :: request.signature.toList) := by
  simp [canonical, middle]

private theorem middle_congr {a b : Request} (same : a.content = b.content) : a.middle = b.middle := by
  obtain ⟨sender, rest⟩ := Prod.mk.inj same
  obtain ⟨sequence, operation⟩ := Prod.mk.inj rest
  rw [middle, middle, sender, sequence, operation]

theorem eq_of_parts {a b : Request} (id : a.id = b.id) (content : a.content = b.content)
    (signature : a.signature = b.signature) : a = b := by
  obtain ⟨sender, rest⟩ := Prod.mk.inj content
  obtain ⟨sequence, operation⟩ := Prod.mk.inj rest
  cases a
  cases b
  cases id
  cases sender
  cases sequence
  cases operation
  cases signature
  rfl

theorem lines_concat (requests : List Request) (last : Request) :
    lines (requests ++ [last]) = lines requests ++ last.canonical.toList ++ ['\n'] := by
  simp [lines]

theorem lines_eq_nil_iff {requests : List Request} : lines requests = [] ↔ requests = [] := by
  cases requests with
  | nil => simp [lines]
  | cons first rest => simp [lines]

private theorem exists_cons_lines (requests : List Request) :
    ∃ front, '\n' :: lines requests = front ++ ['\n'] := by
  induction requests using List.reverseRecOn with
  | nil => exact ⟨[], rfl⟩
  | append_singleton rest last ih =>
    refine ⟨'\n' :: (lines rest ++ last.canonical.toList), ?_⟩
    rw [lines_concat, List.cons_append]

private theorem eq_of_lines_append_id {before before' : List Request} {id id' : List Char}
    (fresh : '\n' ∉ id) (fresh' : '\n' ∉ id') (same : lines before ++ id = lines before' ++ id') :
    lines before = lines before' ∧ id = id' := by
  obtain ⟨front, ends⟩ := exists_cons_lines before
  obtain ⟨front', ends'⟩ := exists_cons_lines before'
  have split : front ++ '\n' :: id = front' ++ '\n' :: id' := by
    have longer := congrArg ('\n' :: ·) same
    simp only [← List.cons_append, ends, ends'] at longer
    simpa using longer
  obtain ⟨fronts, ids⟩ := Text.Separator.eq_of_last fresh fresh' split
  have lists : '\n' :: lines before = '\n' :: lines before' := by rw [ends, ends', fronts]
  exact ⟨List.tail_eq_of_cons_eq lists, ids⟩

end Request

namespace Registry

variable {keys : Registry} {request : Request}

private theorem exists_decode_of_check (passed : keys.check request = .ok ()) :
    ∃ bytes, Text.Hex.decode? request.signature = some bytes := by
  unfold check at passed
  split at passed
  · exact nomatch passed
  · split at passed
    · exact nomatch passed
    · next key known =>
      unfold Signature.Ecdsa.check at passed
      cases read : Text.Hex.decode? request.signature with
      | none =>
        rw [read] at passed
        exact nomatch passed
      | some bytes => exact ⟨bytes, rfl⟩

private theorem colon_not_mem_of_check (passed : keys.check request = .ok ()) :
    ':' ∉ request.signature.toList := by
  obtain ⟨bytes, read⟩ := exists_decode_of_check passed
  intro member
  have digit := Text.Hex.isSome_of_bytes_eq_some read ':' member
  exact absurd digit (by decide)

end Registry

namespace Request

/-- The lines of requests that pass determine them, as long as no identifier holds a line break and no
signature stands under two contents. -/
private theorem eq_of_lines_eq {keys : Registry} {first second : List Request}
    (passes : ∀ request ∈ first, keys.check request = .ok ())
    (passes' : ∀ request ∈ second, keys.check request = .ok ())
    (plain : ∀ request ∈ first, '\n' ∉ request.id.toList)
    (plain' : ∀ request ∈ second, '\n' ∉ request.id.toList)
    (single : ∀ a ∈ first, ∀ b ∈ second, a.signature = b.signature → a.content = b.content)
    (same : lines first = lines second) : first = second := by
  -- the induction goes from the last request to the first, since only the end of a text is certain
  induction first using List.reverseRecOn generalizing second with
  | nil => exact (lines_eq_nil_iff.mp same.symm).symm
  | append_singleton rest a ih =>
    rcases List.eq_nil_or_concat second with rfl | ⟨rest', b, rfl⟩
    · exact lines_eq_nil_iff.mp same
    · simp only [List.concat_eq_append, List.mem_append, List.mem_singleton] at *
      rw [lines_concat, lines_concat] at same
      have unended := List.append_cancel_right same
      rw [toList_canonical, toList_canonical] at unended
      have joined : (lines rest ++ a.id.toList ++ a.middle) ++ ':' :: a.signature.toList =
          (lines rest' ++ b.id.toList ++ b.middle) ++ ':' :: b.signature.toList := by
        simpa only [List.append_assoc] using unended
      obtain ⟨fronts, signatures⟩ := Text.Separator.eq_of_last
        (Registry.colon_not_mem_of_check (passes a (Or.inr rfl)))
        (Registry.colon_not_mem_of_check (passes' b (Or.inr rfl))) joined
      have signature : a.signature = b.signature := String.ext signatures
      have content := single a (Or.inr rfl) b (Or.inr rfl) signature
      rw [middle_congr content] at fronts
      obtain ⟨befores, ids⟩ := eq_of_lines_append_id (plain a (Or.inr rfl))
        (plain' b (Or.inr rfl)) (List.append_cancel_right fronts)
      have heads : rest = rest' := ih (fun r m => passes r (Or.inl m))
        (fun r m => passes' r (Or.inl m)) (fun r m => plain r (Or.inl m))
        (fun r m => plain' r (Or.inl m)) (fun x mx y my => single x (Or.inl mx) y (Or.inl my)) befores
      rw [heads, eq_of_parts (String.ext ids) content signature]

/-- Two requests in one: the second behind an identifier that holds the line of the first. -/
def merged (first second : Request) : Request :=
  { second with id := first.canonical ++ "\n" ++ second.id }

private theorem lines_merged (first second : Request) (rest : List Request) :
    lines (merged first second :: rest) = lines (first :: second :: rest) := by
  simp [lines, merged, canonical]

end Request

namespace Block

variable {block : Block} {requests : List Request}

theorem toList_requestsPreimage (block : Block) :
    block.requestsPreimage.toList = Request.lines block.requests := by
  simp only [requestsPreimage, String.toList_join, List.flatMap_map, String.toList_append]
  rfl

private theorem workPreimage_of_requests
    (same : { block with requests }.requestsPreimage = block.requestsPreimage) :
    { block with requests }.workPreimage = block.workPreimage := by
  have commitment : { block with requests }.requestsHash = block.requestsHash := by
    rw [requestsHash, requestsHash, same]
  rw [workPreimage, workPreimage, commitment]
  rfl

private theorem preimage_of_requests
    (same : { block with requests }.requestsPreimage = block.requestsPreimage) :
    { block with requests }.preimage = block.preimage := by
  have work := workPreimage_of_requests same
  unfold preimage
  rw [work]

end Block

private theorem Rules.checkOn_of_requests {rules : Rules} {schedule : Schedule} {parent block : Block}
    {requests : List Request}
    (same : { block with requests }.requestsPreimage = block.requestsPreimage)
    (covered : rules.checkRequests { block with requests } = .ok ())
    (passed : rules.checkOn schedule parent block = .ok ()) :
    rules.checkOn schedule parent { block with requests } = .ok () := by
  obtain ⟨standing, checked⟩ := checkOn_eq_ok_iff.mp passed
  obtain ⟨worked, hash, -, delay⟩ := check_eq_ok_iff.mp checked
  obtain ⟨sealed, least, met⟩ := Block.checkWork_eq_ok_iff.mp worked
  have workHash : { block with requests }.computeWorkHash rules.hasher =
      block.computeWorkHash rules.hasher := by
    rw [Block.computeWorkHash, Block.computeWorkHash, Block.workPreimage_of_requests same]
  refine checkOn_eq_ok_iff.mpr ⟨standing, check_eq_ok_iff.mpr ⟨?_, ?_, covered, delay⟩⟩
  · refine Block.checkWork_eq_ok_iff.mpr ⟨?_, least, ?_⟩
    · rw [workHash]
      exact sealed
    · rw [workHash]
      exact met
  · rw [Block.computeHash, Block.preimage_of_requests same]
    exact hash

private theorem Block.requests_eq_or {keys : Registry} {first second : Block}
    (passes : Block.checkRequests keys first.requests = .ok ())
    (passes' : Block.checkRequests keys second.requests = .ok ())
    (bytes : Bytes.ofText first.requestsPreimage = Bytes.ofText second.requestsPreimage) :
    first.requests = second.requests ∨
      (∃ request ∈ first.requests ++ second.requests, '\n' ∈ request.id.toList) ∨
      ∃ a ∈ first.requests, ∃ b ∈ second.requests,
        a.signature = b.signature ∧ a.content ≠ b.content := by
  rw [checkRequests_eq_ok_iff] at passes passes'
  have lines : Request.lines first.requests = Request.lines second.requests := by
    rw [← toList_requestsPreimage, ← toList_requestsPreimage, Bytes.ofText_injective bytes]
  by_cases plain : ∃ request ∈ first.requests ++ second.requests, '\n' ∈ request.id.toList
  · exact Or.inr (Or.inl plain)
  by_cases double : ∃ a ∈ first.requests, ∃ b ∈ second.requests,
      a.signature = b.signature ∧ a.content ≠ b.content
  · exact Or.inr (Or.inr double)
  left
  refine Request.eq_of_lines_eq passes passes' ?_ ?_ ?_ lines
  · intro request member broken
    exact plain ⟨request, List.mem_append_left _ member, broken⟩
  · intro request member broken
    exact plain ⟨request, List.mem_append_right _ member, broken⟩
  · intro a ma b mb signature
    by_contra differ
    exact double ⟨a, ma, b, mb, signature, differ⟩

private theorem Block.checkRequests_merged {keys : Registry} {a b : Request} {rest : List Request}
    (passed : Block.checkRequests keys (a :: b :: rest) = .ok ()) :
    Block.checkRequests keys (Request.merged a b :: rest) = .ok () := by
  rw [checkRequests_eq_ok_iff] at passed ⊢
  refine List.forall_mem_cons.mpr ⟨?_, ?_⟩
  · -- the check looks at the content of the second request, not at its identifier
    exact passed b (by simp)
  · intro request member
    exact passed request (by simp [member])

private theorem Rules.exists_requests_of_checkOn {rules : Rules} {schedule : Schedule}
    {parent block : Block} {keys : Registry} (senders : rules.senders = some keys)
    (passed : rules.checkOn schedule parent block = .ok ()) (many : 2 ≤ block.requests.length) :
    ∃ requests, requests ≠ block.requests ∧
      Bytes.ofText { block with requests }.requestsPreimage =
        Bytes.ofText block.requestsPreimage ∧
      rules.checkOn schedule parent { block with requests } = .ok () := by
  obtain ⟨a, b, rest, split⟩ : ∃ a b rest, block.requests = a :: b :: rest := by
    match listed : block.requests with
    | [] => simp [listed] at many
    | [a] => simp [listed] at many
    | a :: b :: rest => exact ⟨a, b, rest, rfl⟩
  have same : { block with requests := Request.merged a b :: rest }.requestsPreimage =
      block.requestsPreimage := by
    apply String.ext
    rw [Block.toList_requestsPreimage, Block.toList_requestsPreimage, split]
    exact Request.lines_merged a b rest
  have covers : rules.checkRequests { block with requests := Request.merged a b :: rest } =
      .ok () := by
    obtain ⟨-, checked⟩ := checkOn_eq_ok_iff.mp passed
    obtain ⟨-, -, covered, -⟩ := check_eq_ok_iff.mp checked
    unfold checkRequests at covered ⊢
    rw [senders] at covered ⊢
    rw [split] at covered
    exact Block.checkRequests_merged covered
  refine ⟨Request.merged a b :: rest, ?_, by rw [same], checkOn_of_requests same covers passed⟩
  intro equal
  have lengths := congrArg List.length equal
  rw [split] at lengths
  simp at lengths

/-- Requests that pass are fixed by the text that commits to them, unless an identifier holds a line
break or one signature stands under two contents. The first exception is met by every block that
passes with two requests or more: it also passes with others, under the same hashes. -/
theorem requests_bound_unless (keys : Registry) :
    (∀ first second : Block, Block.checkRequests keys first.requests = .ok () →
      Block.checkRequests keys second.requests = .ok () →
      Bytes.ofText first.requestsPreimage = Bytes.ofText second.requestsPreimage →
        first.requests = second.requests ∨
          (∃ request ∈ first.requests ++ second.requests, '\n' ∈ request.id.toList) ∨
          ∃ a ∈ first.requests, ∃ b ∈ second.requests,
            a.signature = b.signature ∧ a.content ≠ b.content) ∧
    ∀ (rules : Rules) (schedule : Schedule) (parent block : Block), rules.senders = some keys →
      rules.checkOn schedule parent block = .ok () → 2 ≤ block.requests.length →
        ∃ requests, requests ≠ block.requests ∧
          Bytes.ofText { block with requests }.requestsPreimage =
            Bytes.ofText block.requestsPreimage ∧
          rules.checkOn schedule parent { block with requests } = .ok () := by
  constructor
  · intro first second passes passes' bytes
    exact Block.requests_eq_or passes passes' bytes
  · intro rules schedule parent block senders passed many
    exact Rules.exists_requests_of_checkOn senders passed many

/-- Both exceptions are met: a block of two payments passes with one request in their place, and a
request whose operation begins with numbers and colons lends its signature to another sender, whose
key was made for it. -/
theorem requests_bound_unless_two_payments :
    (∃ (rules : Rules) (parent block : Block) (requests : List Request),
      rules.checkOn (.constant 1) parent block = .ok () ∧
        block.requests.map (·.operation) = ["pay 3", "pay 4"] ∧ requests ≠ block.requests ∧
        Bytes.ofText { block with requests }.requestsPreimage =
          Bytes.ofText block.requestsPreimage ∧
        rules.checkOn (.constant 1) parent { block with requests } = .ok ()) ∧
    ∃ (keys : Registry) (first second : Block),
      Block.checkRequests keys first.requests = .ok () ∧
        Block.checkRequests keys second.requests = .ok () ∧
        Bytes.ofText first.requestsPreimage = Bytes.ofText second.requestsPreimage ∧
        first.requests.length = 1 ∧
        ∃ a ∈ first.requests, ∃ b ∈ second.requests,
          a.signature = b.signature ∧ a.content ≠ b.content := by
  constructor
  · let key := "0279be667ef9dcbbac55a06295ce870b07029bfcdb2dce28d959f2815b16f81798"
    let keys : Registry := .ofList [(7, key)]
    let rules : Rules := { (Node.rehearsal (.constant 1)).rules with senders := some keys }
    let requests : List Request :=
      [⟨"1", 7, 0, "pay 3",
         "3044022079be667ef9dcbbac55a06295ce870b07029bfcdb2dce28d959f2815b16f81798" ++
           "022055b6eb3a9e1a354b8d0d79c108b774a14d2d8b46848252a2f2e73bed27a24b78"⟩,
       ⟨"2", 7, 1, "pay 4",
         "3045022100c6047f9441ed7d6d3045406e95c07cd85c778e4b8cef3ca7abac09b95c709ee5" ++
           "02206778daf14aa7a08bfa830b4f3d0875d673f06f666a9986b52645f92e012ec8d7"⟩]
    let parent : Block := { Block.genesis with hash := "" }
    let made := ((Node.rehearsal (.constant 1)).produce 0 0 parent requests).1.toOption
    let block : Block := made.getD parent
    have passed : rules.checkOn (.constant 1) parent block = .ok () := by decide +kernel
    have listed : block.requests.map (·.operation) = ["pay 3", "pay 4"] := by decide +kernel
    have many : 2 ≤ block.requests.length := by
      rw [← List.length_map (·.operation), listed]
      decide
    obtain ⟨others, differ, same, passes⟩ :=
      (requests_bound_unless keys).2 rules (.constant 1) parent block rfl passed many
    exact ⟨rules, parent, block, others, passed, listed, differ, same, passes⟩
  · let signature :=
      "3044022079be667ef9dcbbac55a06295ce870b07029bfcdb2dce28d959f2815b16f81798" ++
        "02204a586176c89129e7a8c9beebac678c1703ef271888dcd0d937f802c2d7169873"
    let keys : Registry := .ofList
      [(1, "0279be667ef9dcbbac55a06295ce870b07029bfcdb2dce28d959f2815b16f81798"),
       (3, "03a79ce7f6bfcacaadd3234e8193dd38eaf7327c1eec7a491064aa14eb55873cd5")]
    let first : Block := { Block.genesis with requests := [⟨"t", 1, 2, "3:4:x", signature⟩] }
    let second : Block := { Block.genesis with requests := [⟨"t:1:2", 3, 4, "x", signature⟩] }
    have passes : Block.checkRequests keys first.requests = .ok () := by decide +kernel
    have passes' : Block.checkRequests keys second.requests = .ok () := by decide +kernel
    have same : Bytes.ofText first.requestsPreimage = Bytes.ofText second.requestsPreimage := by
      decide +kernel
    refine ⟨keys, first, second, passes, passes', same, rfl, ?_⟩
    rcases (requests_bound_unless keys).1 first second passes passes' same with
      equal | broken | shared
    · exact absurd equal (by decide)
    · exact absurd broken (by decide)
    · exact shared

end DelayChain
