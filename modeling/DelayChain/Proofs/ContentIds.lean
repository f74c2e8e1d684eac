import DelayChain.Proofs.Payloads
import DelayChain.Proofs.Preimages
import DelayChain.Proofs.RequestBinding

/-!
# The commitment to requests that are named by their content

The lines of a commitment stand behind one another without lengths, and operations and signatures may
hold what looks like the next line. But every line begins with an identifier of one width. Where it is
the digest of the content, it fixes the content, and only the content fixes where the line ends; so the
lines are read off from the front, one after another.
-/

set_option autoImplicit false
set_option relaxedAutoImplicit false

namespace DelayChain

namespace Request

variable {a b : Request} {first second : List Request}

/-- The request has the identifier of its content. -/
def IsMade (request : Request) : Prop :=
  ∃ sender sequence operation signature, request = make sender sequence operation signature

private theorem IsMade.id_eq (made : a.IsMade) : a.id = Hash.Sha256.hex (Bytes.ofText a.idPayload) := by
  obtain ⟨sender, sequence, operation, signature, rfl⟩ := made
  exact id_make sender sequence operation signature

private theorem IsMade.length_id (made : a.IsMade) : a.id.toList.length = 64 := by
  rw [made.id_eq]
  exact Hash.Sha256.length_toList_hex _

private theorem IsMade.eq_of_idPayload_eq (made : a.IsMade) (made' : b.IsMade)
    (same : a.idPayload = b.idPayload) : a = b := by
  obtain ⟨sender, sequence, operation, signature⟩ := idPayload_eq_iff.mp same
  refine eq_of_parts ?_ ?_ signature
  · rw [made.id_eq, made'.id_eq, same]
  · rw [content, content, sender, sequence, operation]

private theorem lines_cons (request : Request) (rest : List Request) :
    lines (request :: rest) =
      request.id.toList ++ (request.middle ++ ':' :: request.signature.toList ++ '\n' :: lines rest) := by
  rw [lines, List.flatMap_cons, toList_canonical]
  simp only [List.append_assoc, List.cons_append, List.nil_append]
  rfl

private theorem eq_or_collide_of_lines_eq (made : ∀ request ∈ first, request.IsMade)
    (made' : ∀ request ∈ second, request.IsMade) (same : lines first = lines second) :
    first = second ∨
      ∃ a ∈ first, ∃ b ∈ second, Hash.Sha256.Collide a.idPayload b.idPayload := by
  induction first generalizing second with
  | nil => exact .inl (lines_eq_nil_iff.mp same.symm).symm
  | cons a rest ih =>
    cases second with
    | nil => exact .inl (lines_eq_nil_iff.mp same)
    | cons b rest' =>
      obtain ⟨madeHead, madeRest⟩ := List.forall_mem_cons.mp made
      obtain ⟨madeHead', madeRest'⟩ := List.forall_mem_cons.mp made'
      rw [lines_cons, lines_cons] at same
      -- the identifiers are all that can be told apart before the content is known
      have widths : a.id.toList.length = b.id.toList.length := by
        rw [madeHead.length_id, madeHead'.length_id]
      obtain ⟨ids, behind⟩ := List.append_inj same widths
      have digests := String.ext ids
      rw [madeHead.id_eq, madeHead'.id_eq] at digests
      rcases Hash.Sha256.eq_or_collide digests with payloads | collide
      · obtain rfl := madeHead.eq_of_idPayload_eq madeHead' payloads
        have rests : lines rest = lines rest' := List.tail_eq_of_cons_eq (List.append_cancel_left behind)
        rcases ih madeRest madeRest' rests with rfl | ⟨c, mc, d, md, collide⟩
        · exact .inl rfl
        · exact .inr ⟨c, List.mem_cons_of_mem _ mc, d, List.mem_cons_of_mem _ md, collide⟩
      · exact .inr ⟨a, List.mem_cons_self, b, List.mem_cons_self, collide⟩

end Request

namespace Block

/-- Two lists of requests that are named by their content are committed to by the same bytes only if they
are the same list, unless two different payloads of their identifiers have one digest. -/
theorem requests_eq_or_ids_collide (a b : Block) (made : ∀ request ∈ a.requests, request.IsMade)
    (made' : ∀ request ∈ b.requests, request.IsMade) :
    (Bytes.ofText a.requestsPreimage = Bytes.ofText b.requestsPreimage ↔ a.requests = b.requests) ∨
      ∃ request ∈ a.requests, ∃ request' ∈ b.requests,
        Hash.Sha256.Collide request.idPayload request'.idPayload := by
  by_cases bytes : Bytes.ofText a.requestsPreimage = Bytes.ofText b.requestsPreimage
  · have lines : Request.lines a.requests = Request.lines b.requests := by
      rw [← toList_requestsPreimage, ← toList_requestsPreimage, Bytes.ofText_injective bytes]
    rcases Request.eq_or_collide_of_lines_eq made made' lines with same | collide
    · exact .inl (iff_of_true bytes same)
    · exact .inr collide
  · left
    refine iff_of_false bytes ?_
    intro same
    refine bytes ?_
    rw [requestsPreimage, requestsPreimage, same]

/-- A signature that holds the line of a further request does not pass for it: behind the first
identifier both texts are the same, and yet the bytes differ. -/
theorem requests_eq_or_ids_collide_of_line_in_signature :
    ∃ a b : Block,
      (a.requests.length = 1 ∧ b.requests.length = 2 ∧
        a.requestsPreimage.toList.drop 64 = b.requestsPreimage.toList.drop 64) ∧
      (∀ request ∈ a.requests, request.IsMade) ∧ (∀ request ∈ b.requests, request.IsMade) ∧
      Bytes.ofText a.requestsPreimage ≠ Bytes.ofText b.requestsPreimage := by
  let second := Request.make 2 0 "" ""
  let first := Request.make 1 0 "" ""
  let both := Request.make 1 0 "" ("\n" ++ second.canonical)
  let a : Block := { genesis with requests := [both] }
  let b : Block := { genesis with requests := [first, second] }
  have made : ∀ request ∈ a.requests, request.IsMade := by
    intro request member
    obtain rfl := List.mem_singleton.mp member
    exact ⟨_, _, _, _, rfl⟩
  have made' : ∀ request ∈ b.requests, request.IsMade := by
    intro request member
    rcases List.mem_pair.mp member with rfl | rfl
    · exact ⟨_, _, _, _, rfl⟩
    · exact ⟨_, _, _, _, rfl⟩
  have behind : a.requestsPreimage.toList.drop 64 = b.requestsPreimage.toList.drop 64 := by
    have width : both.id.toList.length = 64 := (made both (by simp [a])).length_id
    have width' : first.id.toList.length = 64 := (made' first (by simp [b])).length_id
    rw [toList_requestsPreimage, toList_requestsPreimage, Request.lines_cons, Request.lines_cons,
      List.drop_left' width, List.drop_left' width']
    simp [Request.lines, Request.middle, both, first, Request.make]
  have apart : ¬∃ request ∈ a.requests, ∃ request' ∈ b.requests,
      Hash.Sha256.Collide request.idPayload request'.idPayload := by
    have head : (Hash.Sha256.digest (Bytes.ofText both.idPayload)).head? = some 209 := by
      decide +kernel
    have head₁ : (Hash.Sha256.digest (Bytes.ofText first.idPayload)).head? = some 91 := by
      decide +kernel
    have head₂ : (Hash.Sha256.digest (Bytes.ofText second.idPayload)).head? = some 119 := by
      decide +kernel
    rintro ⟨request, member, request', member', -, digests⟩
    obtain rfl := List.mem_singleton.mp member
    rcases List.mem_pair.mp member' with rfl | rfl
    · rw [digests, head₁] at head
      exact absurd head (by decide)
    · rw [digests, head₂] at head
      exact absurd head (by decide)
  refine ⟨a, b, ⟨rfl, rfl, behind⟩, made, made', ?_⟩
  rcases requests_eq_or_ids_collide a b made made' with equivalent | collide
  · intro bytes
    exact absurd (congrArg List.length (equivalent.mp bytes)) (by decide)
  · exact absurd collide apart

end Block

end DelayChain
