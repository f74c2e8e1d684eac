import Mathlib.Data.List.Nodup
import DelayChain.Block.Wire
import DelayChain.Proofs.JsonText

/-!
# Blocks on the wire

The readers of scalars undo their writers, and an object with distinct names gives back each of its
fields. So a block comes back from its text as it was, with every hash that is taken over it.
-/

set_option autoImplicit false
set_option relaxedAutoImplicit false

namespace DelayChain

namespace Json

private theorem uint32_ofNat (n : UInt32) : uint32? (ofNat n.toNat) = some n := by
  have bound := n.toNat_lt
  have within : (0 : Int) ≤ n.toNat ∧ (n.toNat : Int) ≤ 0xffffffff := by omega
  rw [uint32?, ofNat, intWithin?, if_pos within, Option.map_some, Int.toNat_natCast,
    UInt32.ofNat_toNat]

private theorem uint64_ofNat (n : UInt64) : uint64? (ofNat n.toNat) = some n := by
  have bound := n.toNat_lt
  have within : (0 : Int) ≤ n.toNat ∧ (n.toNat : Int) ≤ 0xffffffffffffffff := by omega
  rw [uint64?, ofNat, intWithin?, if_pos within, Option.map_some, Int.toNat_natCast,
    UInt64.ofNat_toNat]

private theorem int64_integer (n : Int64) : int64? (.integer n.toInt) = some n := by
  have least := n.le_toInt
  have greatest := n.toInt_lt
  have within : -0x8000000000000000 ≤ n.toInt ∧ n.toInt ≤ 0x7fffffffffffffff := by omega
  rw [int64?, intWithin?, if_pos within, Option.map_some, Int64.ofInt_toInt]

private theorem hexNatural_ofHexNatural (n : Nat) : hexNatural? (ofHexNatural n) = some n :=
  Text.Numeral.natural_hex n

private theorem mapM_map_eq_some {α β γ : Type} {write : α → β} {read? : β → Option γ} {value : α → γ}
    {xs : List α} (each : ∀ x ∈ xs, read? (write x) = some (value x)) :
    (xs.map write).mapM read? = some (xs.map value) := by
  induction xs with
  | nil => rfl
  | cons x rest ih =>
    obtain ⟨first, others⟩ := List.forall_mem_cons.mp each
    rw [List.map_cons, List.mapM_cons, first, ih others]
    rfl

private theorem listOf_map {α : Type} {write : α → Json} {read? : Json → Option α}
    (inverse : ∀ a, read? (write a) = some a) (as : List α) :
    listOf? read? (.array (as.map write)) = some as := by
  rw [listOf?, mapM_map_eq_some fun a _ => inverse a]
  exact congrArg some (List.map_id as)

private theorem optional_ofOption {α : Type} {write : α → Json} {read? : Json → Option α}
    (inverse : ∀ a, read? (write a) = some a) (present : ∀ a, write a ≠ .null) (value : Option α) :
    optional? read? (some (ofOption write value)) = some value := by
  cases value with
  | none => rfl
  | some a =>
    rw [ofOption]
    unfold optional?
    split
    · next none_ => exact nomatch none_
    · next null => exact absurd (Option.some.inj null) (present a)
    · next same =>
      rw [← Option.some.inj same, inverse]
      rfl

private theorem filter_of_mem {members : List (String × Json)} (distinct : (members.map Prod.fst).Nodup)
    {member : String × Json} (among : member ∈ members) :
    members.filter (·.1 == member.1) = [member] := by
  induction members with
  | nil => exact absurd among List.not_mem_nil
  | cons head rest ih =>
    obtain ⟨fresh, distinct⟩ := List.nodup_cons.mp distinct
    rcases List.mem_cons.mp among with rfl | behind
    · have others : ∀ other ∈ rest, ¬(other.1 == member.1) = true := by
        intro other behind same
        exact fresh (List.mem_map.mpr ⟨other, behind, beq_iff_eq.mp same⟩)
      rw [List.filter_cons, if_pos (beq_self_eq_true member.1), List.filter_eq_nil_iff.mpr others]
    · have differ : ¬(head.1 == member.1) = true := by
        intro same
        exact fresh (List.mem_map.mpr ⟨member, behind, (beq_iff_eq.mp same).symm⟩)
      rw [List.filter_cons, if_neg differ, ih distinct behind]

private theorem fields_object {members : List (String × Json)} {names : List String}
    (named : members.map Prod.fst = names) (distinct : names.Nodup) :
    fields? names (.object members) = some (members.map fun member => some member.2) := by
  subst named
  rw [fields?]
  refine mapM_map_eq_some ?_
  intro member among
  rw [field?, filter_of_mem distinct among]

private theorem plainItems_map {α : Type} {write : α → Json} (plain : ∀ a, (write a).Plain)
    (as : List α) :
    PlainItems (as.map write) := by
  induction as with
  | nil => trivial
  | cons a rest ih => exact ⟨plain a, ih⟩

private theorem plain_ofOption {α : Type} {write : α → Json} (plain : ∀ a, (write a).Plain)
    (value : Option α) : (ofOption write value).Plain := by
  cases value with
  | none => trivial
  | some a => exact plain a

end Json

namespace Request

private theorem ofJson_toJson (request : Request) : ofJson? request.toJson = some request := by
  have fields : request.toJson.fields? fieldNames = _ := Json.fields_object rfl (by decide)
  rw [ofJson?, fields]
  simp only [List.map_cons, List.map_nil, Option.bind_eq_bind, Option.bind_some, Json.string?,
    Json.uint32_ofNat, Json.uint64_ofNat]

private theorem plain_toJson (request : Request) : request.toJson.Plain :=
  ⟨trivial, trivial, trivial, trivial, trivial, trivial⟩

end Request

namespace Delay.Proof

private theorem ofJson_toJson (proof : Proof) : ofJson? proof.toJson = some proof := by
  have fields : proof.toJson.fields? fieldNames = _ := Json.fields_object rfl (by decide)
  rw [ofJson?, fields]
  simp only [List.map_cons, List.map_nil, Option.bind_eq_bind, Option.bind_some,
    Json.hexNatural_ofHexNatural, Json.listOf_map Json.hexNatural_ofHexNatural, Json.uint64_ofNat,
    Json.int64_integer]

private theorem plain_toJson (proof : Proof) : proof.toJson.Plain := by
  have midpoints : Json.PlainItems (proof.midpoints.map Json.ofHexNatural) := by
    refine Json.plainItems_map ?_ proof.midpoints
    intro midpoint
    trivial
  exact ⟨trivial, midpoints, trivial, trivial, trivial⟩

end Delay.Proof

namespace Block

private theorem ofJson_toJson (block : Block) : ofJson? block.toJson = some block := by
  have fields : block.toJson.fields? fieldNames = _ := Json.fields_object rfl (by decide)
  have texts (text : Option String) :
      Json.optional? Json.string? (some (Json.ofOption .text text)) = some text := by
    refine Json.optional_ofOption ?_ ?_ text
    · intro given
      rfl
    · intro given
      exact Json.noConfusion
  have proofs := Json.optional_ofOption Delay.Proof.ofJson_toJson (fun _ => Json.noConfusion)
  rw [ofJson?, fields]
  simp only [List.map_cons, List.map_nil, Option.bind_eq_bind, Option.bind_some, texts, proofs,
    Json.listOf_map Request.ofJson_toJson, Json.string?, Json.bool?, Json.uint32_ofNat,
    Json.uint64_ofNat, Json.int64_integer]

private theorem plain_toJson (block : Block) : block.toJson.Plain := by
  have texts (text : Option String) : (Json.ofOption .text text).Plain := by
    refine Json.plain_ofOption ?_ text
    intro given
    trivial
  have requests := Json.plainItems_map Request.plain_toJson block.requests
  have proof := Json.plain_ofOption Delay.Proof.plain_toJson block.proof
  exact ⟨trivial, texts block.parent, requests, trivial, trivial, trivial, trivial,
    texts block.workHash, proof, trivial, trivial, trivial⟩

/-- A block comes back from its text as it was, and so do the texts and hashes that are taken of it. -/
theorem ofJson_read_render (block : Block) :
    let received := (Json.read? block.toJson.render).bind ofJson?
    received = some block ∧
      received.map requestsHash = some block.requestsHash ∧
      received.map workPreimage = some block.workPreimage ∧
      received.map preimage = some block.preimage ∧
      received.map (fun received => received.proof.map Delay.Proof.fingerprint) =
        some (block.proof.map Delay.Proof.fingerprint) := by
  intro received
  have whole : received = some block := by
    show (Json.read? block.toJson.render).bind ofJson? = some block
    rw [Json.read_render block.plain_toJson, Option.bind_some, ofJson_toJson]
  rw [whole]
  exact ⟨rfl, rfl, rfl, rfl, rfl⟩

end Block

end DelayChain
