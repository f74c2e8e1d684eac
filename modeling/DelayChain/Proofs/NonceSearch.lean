import Mathlib.Order.Defs.LinearOrder
import DelayChain.Mining.Search

/-!
# The nonce that a search finds

A search goes past a nonce that does not win and behind which it is not called off. It stops at the first
nonce that it does not go past, and there a win is looked at before the call. So the least winning nonce
is found unless the search is called off behind a smaller one, and a search called off before it began
still finds a first nonce that wins.
-/

set_option autoImplicit false
set_option relaxedAutoImplicit false

namespace DelayChain

namespace Search

/-- The nonce does not win, and behind it the search is not called off. -/
def GoesPast (digest : UInt64 → String) (difficulty : UInt32) (flag : UInt64 → Bool)
    (nonce : UInt64) : Prop :=
  ¬Hasher.Meets (digest nonce) difficulty ∧ flag nonce = false

/-- The search goes past the nonces from the first up to another. -/
def Reaches (digest : UInt64 → String) (difficulty : UInt32) (flag : UInt64 → Bool)
    (first nonce : UInt64) : Prop :=
  first ≤ nonce ∧ ∀ earlier, first ≤ earlier → earlier < nonce →
    GoesPast digest difficulty flag earlier

/-- The ends of a search from a nonce on. -/
inductive Ends (digest : UInt64 → String) (difficulty : UInt32) (flag : UInt64 → Bool)
    (first : UInt64) : Search → Prop
  | won (nonce : UInt64) (reaches : Reaches digest difficulty flag first nonce)
      (meets : Hasher.Meets (digest nonce) difficulty) :
      Ends digest difficulty flag first (.won nonce (digest nonce))
  | cancelled (nonce : UInt64) (reaches : Reaches digest difficulty flag first nonce)
      (fails : ¬Hasher.Meets (digest nonce) difficulty) (called : flag nonce = true) :
      Ends digest difficulty flag first (.cancelled nonce)
  | exhausted (never : ∀ nonce, first ≤ nonce → GoesPast digest difficulty flag nonce) :
      Ends digest difficulty flag first .exhausted

variable {digest : UInt64 → String} {difficulty : UInt32} {flag : UInt64 → Bool}
  {first nonce other : UInt64} {outcome outcome' : Search}

private theorem toNat_next (further : first.toNat ≠ 0xffffffffffffffff) :
    (first + 1).toNat = first.toNat + 1 := by
  have bound := first.toNat_lt
  rw [UInt64.toNat_add, UInt64.toNat_one, Nat.mod_eq_of_lt (by omega)]

private theorem eq_or_next_le (further : first.toNat ≠ 0xffffffffffffffff) (reached : first ≤ nonce) :
    first = nonce ∨ first + 1 ≤ nonce := by
  rw [UInt64.le_iff_toNat_le] at reached
  rw [UInt64.le_iff_toNat_le, toNat_next further]
  rcases Nat.eq_or_lt_of_le reached with same | behind
  · exact .inl (UInt64.toNat.inj same)
  · exact .inr behind

private theorem reaches_self : Reaches digest difficulty flag first first := by
  refine ⟨UInt64.le_refl _, ?_⟩
  intro earlier reached before
  exact absurd before (UInt64.not_lt.mpr reached)

private theorem Reaches.step (past : GoesPast digest difficulty flag first)
    (further : first.toNat ≠ 0xffffffffffffffff)
    (reaches : Reaches digest difficulty flag (first + 1) nonce) :
    Reaches digest difficulty flag first nonce := by
  obtain ⟨behind, passed⟩ := reaches
  constructor
  · rw [UInt64.le_iff_toNat_le, toNat_next further] at behind
    rw [UInt64.le_iff_toNat_le]
    omega
  · intro earlier reached before
    rcases eq_or_next_le further reached with rfl | behind
    · exact past
    · exact passed earlier behind before

private theorem Ends.step (past : GoesPast digest difficulty flag first)
    (further : first.toNat ≠ 0xffffffffffffffff)
    (ends : Ends digest difficulty flag (first + 1) outcome) :
    Ends digest difficulty flag first outcome := by
  cases ends with
  | won nonce reaches meets => exact .won nonce (reaches.step past further) meets
  | cancelled nonce reaches fails called =>
    exact .cancelled nonce (reaches.step past further) fails called
  | exhausted never =>
    refine .exhausted ?_
    intro nonce reached
    rcases eq_or_next_le further reached with rfl | behind
    · exact past
    · exact never nonce behind

theorem ends_from (digest : UInt64 → String) (difficulty : UInt32) (flag : UInt64 → Bool)
    (first : UInt64) :
    Ends digest difficulty flag first (Search.from digest difficulty flag first) := by
  -- the induction goes up the nonces that the search goes past
  fun_induction Search.from digest difficulty flag first with
  | case1 first tried meets => exact .won first reaches_self meets
  | case2 first tried fails called => exact .cancelled first reaches_self fails called
  | case3 first tried fails called last =>
    refine .exhausted ?_
    intro nonce reached
    have bound := nonce.toNat_lt
    rw [UInt64.le_iff_toNat_le, last] at reached
    obtain rfl : nonce = first := UInt64.toNat.inj (by omega)
    exact ⟨fails, Bool.eq_false_iff.mpr called⟩
  | case4 first tried fails called further ih =>
    exact ih.step ⟨fails, Bool.eq_false_iff.mpr called⟩ further

private theorem Reaches.eq (reaches : Reaches digest difficulty flag first nonce)
    (stops : ¬GoesPast digest difficulty flag nonce)
    (reaches' : Reaches digest difficulty flag first other)
    (stops' : ¬GoesPast digest difficulty flag other) : nonce = other := by
  by_contra apart
  rcases UInt64.lt_or_lt_of_ne apart with before | behind
  · exact stops (reaches'.2 nonce reaches.1 before)
  · exact stops' (reaches.2 other reaches'.1 behind)

private theorem not_goesPast_of_meets (meets : Hasher.Meets (digest nonce) difficulty) :
    ¬GoesPast digest difficulty flag nonce := fun past => past.1 meets

private theorem not_goesPast_of_called (called : flag nonce = true) :
    ¬GoesPast digest difficulty flag nonce := by
  intro past
  rw [past.2] at called
  exact Bool.false_ne_true called

private theorem Ends.unique (ends : Ends digest difficulty flag first outcome)
    (ends' : Ends digest difficulty flag first outcome') : outcome = outcome' := by
  cases ends with
  | won nonce reaches meets =>
    have stops : ¬GoesPast digest difficulty flag nonce := not_goesPast_of_meets meets
    cases ends' with
    | won other reaches' meets' =>
      rw [reaches.eq stops reaches' (not_goesPast_of_meets meets')]
    | cancelled other reaches' fails called =>
      obtain rfl := reaches.eq stops reaches' (not_goesPast_of_called called)
      exact absurd meets fails
    | exhausted never => exact absurd (never nonce reaches.1) stops
  | cancelled nonce reaches fails called =>
    have stops : ¬GoesPast digest difficulty flag nonce := not_goesPast_of_called called
    cases ends' with
    | won other reaches' meets =>
      obtain rfl := reaches.eq stops reaches' (not_goesPast_of_meets meets)
      exact absurd meets fails
    | cancelled other reaches' fails' called' =>
      rw [reaches.eq stops reaches' (not_goesPast_of_called called')]
    | exhausted never => exact absurd (never nonce reaches.1) stops
  | exhausted never =>
    cases ends' with
    | won other reaches' meets =>
      exact absurd (never other reaches'.1) (not_goesPast_of_meets meets)
    | cancelled other reaches' fails called =>
      exact absurd (never other reaches'.1) (not_goesPast_of_called called)
    | exhausted => rfl

theorem from_eq_iff_ends : Search.from digest difficulty flag first = outcome ↔
    Ends digest difficulty flag first outcome := by
  constructor
  · rintro rfl
    exact ends_from digest difficulty flag first
  · exact (ends_from digest difficulty flag first).unique

end Search

namespace Block

variable {block : Block} {hasher : Hasher} {flag : UInt64 → Bool} {nonce : UInt64}

/-- The work hash of the block under the nonce meets the difficulty of the block. -/
def Wins (block : Block) (hasher : Hasher) (nonce : UInt64) : Prop :=
  Hasher.Meets ({ block with nonce }.computeWorkHash hasher) block.difficulty

/-- The nonce wins, and no smaller one does. -/
structure LeastWin (block : Block) (hasher : Hasher) (nonce : UInt64) : Prop where
  wins : block.Wins hasher nonce
  least : ∀ earlier < nonce, ¬block.Wins hasher earlier

/-- The search is not called off behind any smaller nonce. -/
def Uncalled (flag : UInt64 → Bool) (nonce : UInt64) : Prop := ∀ earlier < nonce, flag earlier = false

private theorem search_eq_iff_ends {outcome : Search} : block.search hasher flag = outcome ↔
    Search.Ends (fun nonce => { block with nonce }.computeWorkHash hasher) block.difficulty flag 0
      outcome := Search.from_eq_iff_ends

private theorem reaches_iff :
    Search.Reaches (fun nonce => { block with nonce }.computeWorkHash hasher) block.difficulty flag 0
      nonce ↔ (∀ earlier < nonce, ¬block.Wins hasher earlier) ∧ Uncalled flag nonce := by
  constructor
  · rintro ⟨-, past⟩
    exact ⟨fun earlier before => (past earlier UInt64.zero_le before).1,
      fun earlier before => (past earlier UInt64.zero_le before).2⟩
  · rintro ⟨least, uncalled⟩
    exact ⟨UInt64.zero_le, fun earlier _ before => ⟨least earlier before, uncalled earlier before⟩⟩

private theorem search_eq_won_iff {digest : String} : block.search hasher flag = .won nonce digest ↔
    block.LeastWin hasher nonce ∧ Uncalled flag nonce ∧
      digest = { block with nonce }.computeWorkHash hasher := by
  rw [search_eq_iff_ends]
  constructor
  · rintro (⟨nonce, reaches, wins⟩ | - | -)
    obtain ⟨least, uncalled⟩ := reaches_iff.mp reaches
    exact ⟨⟨wins, least⟩, uncalled, rfl⟩
  · rintro ⟨⟨wins, least⟩, uncalled, rfl⟩
    exact .won nonce (reaches_iff.mpr ⟨least, uncalled⟩) wins

private theorem search_eq_cancelled_iff : block.search hasher flag = .cancelled nonce ↔
    (∀ earlier ≤ nonce, ¬block.Wins hasher earlier) ∧ Uncalled flag nonce ∧ flag nonce = true := by
  rw [search_eq_iff_ends]
  constructor
  · rintro (- | ⟨nonce, reaches, fails, called⟩ | -)
    obtain ⟨least, uncalled⟩ := reaches_iff.mp reaches
    refine ⟨?_, uncalled, called⟩
    intro earlier within
    by_cases last : earlier = nonce
    · rw [last]
      exact fails
    · exact least earlier (UInt64.lt_of_le_of_ne within last)
  · rintro ⟨fail, uncalled, called⟩
    have least : ∀ earlier < nonce, ¬block.Wins hasher earlier :=
      fun earlier before => fail earlier (UInt64.le_of_lt before)
    exact .cancelled nonce (reaches_iff.mpr ⟨least, uncalled⟩) (fail nonce (UInt64.le_refl _)) called

private theorem search_eq_exhausted_iff : block.search hasher flag = .exhausted ↔
    ∀ nonce, ¬block.Wins hasher nonce ∧ flag nonce = false := by
  rw [search_eq_iff_ends]
  constructor
  · rintro (- | - | never)
    exact fun nonce => never nonce UInt64.zero_le
  · intro never
    exact .exhausted fun nonce _ => never nonce

private theorem exists_search_eq_won (wins : block.Wins hasher nonce) (uncalled : Uncalled flag nonce) :
    ∃ least digest, block.search hasher flag = .won least digest := by
  cases searched : block.search hasher flag with
  | won least digest => exact ⟨least, digest, rfl⟩
  | cancelled last =>
    obtain ⟨fail, -, called⟩ := search_eq_cancelled_iff.mp searched
    rcases UInt64.lt_or_le last nonce with before | within
    · rw [uncalled last before] at called
      exact absurd called Bool.false_ne_true
    · exact absurd wins (fail nonce within)
  | exhausted => exact absurd wins (search_eq_exhausted_iff.mp searched nonce).1

private theorem mine_eq_ok_iff {attempts : Nat} {mined : Block} :
    block.mine hasher flag = (.ok attempts, mined) ↔
      ∃ nonce digest, block.search hasher flag = .won nonce digest ∧ attempts = nonce.toNat + 1 ∧
        mined = { block with nonce }.sealWith digest := by
  unfold mine
  cases block.search hasher flag with
  | won nonce digest =>
    constructor
    · intro same
      obtain ⟨counted, result⟩ := Prod.mk.inj same
      exact ⟨nonce, digest, rfl, (Except.ok.inj counted).symm, result.symm⟩
    · rintro ⟨_, _, ⟨⟩, rfl, rfl⟩
      rfl
  | cancelled nonce => simp
  | exhausted => simp

private theorem mine_eq_cancelled_iff {mined : Block} :
    block.mine hasher flag = (.error .cancelled, mined) ↔
      ∃ nonce, block.search hasher flag = .cancelled nonce ∧ mined = { block with nonce } := by
  unfold mine
  cases block.search hasher flag with
  | won nonce digest => simp
  | cancelled nonce => simp [eq_comm]
  | exhausted => simp

private theorem fst_mine_eq_exhausted_iff :
    (block.mine hasher flag).1 = .error .exhausted ↔ block.search hasher flag = .exhausted := by
  unfold mine
  cases block.search hasher flag <;> simp

/-- A block is mined exactly if some nonce wins and the search is not called off behind a smaller one.
Then it has the least nonce that wins and the digest of its contents as both hashes, and the nonces from
zero up to its own are counted. The search is given up exactly if it is called off behind a nonce and neither
that one nor a smaller one wins; the block then has that nonce. Nothing else in the block is touched.
Otherwise no nonce wins and the search is never called off. -/
theorem mine_finds_least_nonce (block : Block) (hasher : Hasher) (flag : UInt64 → Bool) :
    ((∃ attempts, (block.mine hasher flag).1 = .ok attempts) ↔
      ∃ nonce, block.Wins hasher nonce ∧ Uncalled flag nonce) ∧
    (∀ attempts mined, block.mine hasher flag = (.ok attempts, mined) ↔
      ∃ nonce, block.LeastWin hasher nonce ∧ Uncalled flag nonce ∧ attempts = nonce.toNat + 1 ∧
        mined = { block with
          nonce
          hash := hasher mined.workPreimage
          workHash := some (hasher mined.workPreimage) }) ∧
    (∀ mined, block.mine hasher flag = (.error .cancelled, mined) ↔
      ∃ nonce, (∀ earlier ≤ nonce, ¬block.Wins hasher earlier) ∧ Uncalled flag nonce ∧
        flag nonce = true ∧ mined = { block with nonce }) ∧
    ((block.mine hasher flag).1 = .error .exhausted ↔
      ∀ nonce, ¬block.Wins hasher nonce ∧ flag nonce = false) := by
  refine ⟨⟨?_, ?_⟩, ?_, ?_, ?_⟩
  · rintro ⟨attempts, found⟩
    obtain ⟨nonce, digest, searched, -⟩ := mine_eq_ok_iff.mp (Prod.ext found rfl)
    obtain ⟨least, uncalled, -⟩ := search_eq_won_iff.mp searched
    exact ⟨nonce, least.wins, uncalled⟩
  · rintro ⟨nonce, wins, uncalled⟩
    obtain ⟨least, digest, searched⟩ := exists_search_eq_won wins uncalled
    have mined := mine_eq_ok_iff.mpr ⟨least, digest, searched, rfl, rfl⟩
    exact ⟨_, congrArg Prod.fst mined⟩
  · intro attempts mined
    rw [mine_eq_ok_iff]
    constructor
    · rintro ⟨nonce, digest, searched, counted, rfl⟩
      obtain ⟨least, uncalled, rfl⟩ := search_eq_won_iff.mp searched
      exact ⟨nonce, least, uncalled, counted, rfl⟩
    · rintro ⟨nonce, least, uncalled, counted, same⟩
      -- the hashes of the block are no part of what they are taken of
      have digest : hasher mined.workPreimage = { block with nonce }.computeWorkHash hasher := by
        rw [same]
        rfl
      refine ⟨nonce, _, search_eq_won_iff.mpr ⟨least, uncalled, digest⟩, counted, same⟩
  · intro mined
    rw [mine_eq_cancelled_iff]
    simp only [search_eq_cancelled_iff, and_assoc]
  · rw [fst_mine_eq_exhausted_iff, search_eq_exhausted_iff]

end Block

end DelayChain
