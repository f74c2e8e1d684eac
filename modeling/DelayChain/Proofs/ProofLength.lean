import DelayChain.Proofs.ClaimedOutput
import DelayChain.Proofs.ProofExistence

/-!
# The length of a proof

The rounds of a claim are counted by its length alone, whatever the midpoints are. So a proof has one
midpoint for each round: with fewer it is too short by the time they are used up, and what stands behind
the last round is never looked at but for its number. Either fault is named exactly if every midpoint that
is used is a residue.
-/

set_option autoImplicit false
set_option relaxedAutoImplicit false

namespace DelayChain.Delay

variable {P : Parameters} {claim : Claim} {index : Nat} {mus front extra : List Nat}

/-- The claim behind rounds with the given midpoints. -/
def Claim.along (P : Parameters) (claim : Claim) (mus : List Nat) : Claim :=
  mus.foldl (fun claim mu => claim.fold P mu) claim

/-- The single squaring that a claim comes down to is right. -/
def Claim.Closes (P : Parameters) (claim : Claim) : Prop :=
  P.canonical (claim.base * claim.base) = claim.output

instance (P : Parameters) (claim : Claim) : Decidable (claim.Closes P) :=
  inferInstanceAs (Decidable (_ = _))

/-- The first fault of the midpoints themselves, whatever claim they are used for. -/
def midpointFault? (P : Parameters) (index : Nat) : List Nat → Option ProofRejection
  | [] => none
  | mu :: rest =>
    if ¬P.IsCanonical mu then some (.midpointOutOfRange index)
    else if ¬P.IsResidue mu then some (.nonResidue index)
    else midpointFault? P (index + 1) rest

private theorem midpointFault?_eq_none_iff :
    midpointFault? P index mus = none ↔ ∀ mu ∈ mus, P.IsResidue mu := by
  induction mus generalizing index with
  | nil => simp [midpointFault?]
  | cons mu rest ih =>
    rw [midpointFault?, List.forall_mem_cons, ← @ih (index + 1)]
    by_cases residue : P.IsResidue mu
    · rw [if_neg (not_not.mpr residue.1), if_neg (not_not.mpr residue)]
      exact (and_iff_right residue).symm
    · by_cases canonical : P.IsCanonical mu
      · simp [canonical, residue]
      · simp [canonical, residue]

/-- A replay first meets the faults of the midpoints that it uses, then a wrong number of them, and last a
wrong output. -/
private theorem replay_eq (P : Parameters) (index : Nat) (claim : Claim) (mus : List Nat) :
    replay P index claim mus =
      match midpointFault? P index (mus.take (rounds claim.length)) with
      | some fault => .error fault
      | none =>
        if mus.length < rounds claim.length then .error (.tooShort (index + mus.length))
        else if rounds claim.length < mus.length then
          .error (.tooLong (mus.length - rounds claim.length))
        else if (claim.along P mus).Closes P then .ok ()
        else .error .outputMismatch := by
  -- the induction goes down the midpoints; each round takes one of them and one off the count
  induction mus generalizing index claim with
  | nil =>
    rw [List.take_nil, midpointFault?, replay]
    by_cases short : claim.length ≤ 1
    · rw [if_neg (Nat.not_lt.mpr short), rounds_of_short short]
      rfl
    · rw [if_pos (Nat.not_le.mp short), rounds_of_long short]
      rfl
  | cons mu rest ih =>
    by_cases short : claim.length ≤ 1
    · rw [replay, if_pos short, rounds_of_short short, List.take_zero, midpointFault?]
      rfl
    · have counted : rounds claim.length = rounds (claim.fold P mu).length + 1 :=
        rounds_of_long short
      rw [counted, List.take_succ_cons, midpointFault?, replay, if_neg short]
      by_cases canonical : P.IsCanonical mu
      · by_cases residue : P.IsResidue mu
        · rw [if_neg (not_not.mpr canonical), if_neg (not_not.mpr residue),
            if_neg (not_not.mpr canonical), if_neg (not_not.mpr residue), ih]
          simp only [List.length_cons, Nat.add_lt_add_iff_right, Nat.add_sub_add_right,
            Nat.add_assoc, Nat.add_comm 1]
          rfl
        · rw [if_neg (not_not.mpr canonical), if_pos residue, if_neg (not_not.mpr canonical),
            if_pos residue]
      · rw [if_pos canonical, if_pos canonical]

private theorem replay_eq_of_residues
    (residues : ∀ mu ∈ mus.take (rounds claim.length), P.IsResidue mu) :
    replay P index claim mus =
      if mus.length < rounds claim.length then .error (.tooShort (index + mus.length))
      else if rounds claim.length < mus.length then
        .error (.tooLong (mus.length - rounds claim.length))
      else if (claim.along P mus).Closes P then .ok ()
      else .error .outputMismatch := by
  rw [replay_eq, midpointFault?_eq_none_iff.mpr residues]

private theorem replay_eq_ok_iff :
    replay P index claim mus = .ok () ↔
      mus.length = rounds claim.length ∧ (∀ mu ∈ mus, P.IsResidue mu) ∧
        (claim.along P mus).Closes P := by
  constructor
  · intro accepted
    rw [replay_eq] at accepted
    cases faults : midpointFault? P index (mus.take (rounds claim.length)) with
    | some fault =>
      rw [faults] at accepted
      exact nomatch accepted
    | none =>
      rw [faults] at accepted
      dsimp only at accepted
      split at accepted
      · exact nomatch accepted
      split at accepted
      · exact nomatch accepted
      split at accepted
      · next enough within closes =>
        have length : mus.length = rounds claim.length := by omega
        rw [← length, List.take_length] at faults
        exact ⟨length, midpointFault?_eq_none_iff.mp faults, closes⟩
      · exact nomatch accepted
  · rintro ⟨length, residues, closes⟩
    rw [replay_eq_of_residues fun mu member => residues mu (List.mem_of_mem_take member),
      if_neg (by omega), if_neg (by omega), if_pos closes]

variable {input : Bytes} {output : Nat}

private theorem verify_eq_replay (canonical : P.IsCanonical output) (mus : List Nat) (now : Int64) :
    verify P input ⟨output, mus, P.time, now⟩ = replay P 0 (P.claim input output) mus := by
  rw [verify, if_neg (not_not.mpr rfl), if_neg (not_not.mpr canonical)]

private theorem time_of_verify_eq_ok {proof : Proof} (accepted : verify P input proof = .ok ()) :
    proof.time = P.time := by
  by_contra other
  rw [verify, if_pos other] at accepted
  cases accepted

private theorem verify_eq_tooShort (canonical : P.IsCanonical output)
    (residues : ∀ mu ∈ front, P.IsResidue mu) (fewer : front.length < rounds P.time.toNat)
    (now : Int64) :
    verify P input ⟨output, front, P.time, now⟩ = .error (.tooShort front.length) := by
  have used : ∀ mu ∈ front.take (rounds (P.claim input output).length), P.IsResidue mu :=
    fun mu member => residues mu (List.mem_of_mem_take member)
  rw [verify_eq_replay canonical, replay_eq_of_residues used, P.length_claim, if_pos fewer,
    Nat.zero_add]

private theorem verify_eq_tooLong (canonical : P.IsCanonical output)
    (residues : ∀ mu ∈ front, P.IsResidue mu) (enough : front.length = rounds P.time.toNat)
    (more : extra ≠ []) (now : Int64) :
    verify P input ⟨output, front ++ extra, P.time, now⟩ = .error (.tooLong extra.length) := by
  have positive : 0 < extra.length := List.length_pos_of_ne_nil more
  have used : ∀ mu ∈ (front ++ extra).take (rounds (P.claim input output).length),
      P.IsResidue mu := by
    rw [P.length_claim, ← enough, List.take_left]
    exact residues
  rw [verify_eq_replay canonical, replay_eq_of_residues used, P.length_claim, ← enough,
    List.length_append, if_neg (by omega), if_pos (by omega), Nat.add_sub_cancel_left]

/-- An accepted proof has one midpoint for each round. Its numbers represent elements, and the midpoints
have Jacobi symbol one. Cut short anywhere it is too short, and the refusal gives the number of midpoints
left; with anything behind them it is too long, and the refusal gives the number of what stands there. -/
theorem length_faults_of_verify_eq_ok {proof : Proof}
    (accepted : verify P input proof = .ok ()) :
    proof.midpoints.length = rounds P.time.toNat ∧ 2 * proof.output < P.modulus ∧
    (∀ mu ∈ proof.midpoints, 2 * mu < P.modulus ∧ jacobiSym mu P.modulus = 1) ∧
    (∀ front now, front <+: proof.midpoints → front ≠ proof.midpoints →
      verify P input ⟨proof.output, front, proof.time, now⟩ = .error (.tooShort front.length)) ∧
    ∀ extra now, extra ≠ [] →
      verify P input ⟨proof.output, proof.midpoints ++ extra, proof.time, now⟩ =
        .error (.tooLong extra.length) := by
  have time := time_of_verify_eq_ok accepted
  obtain ⟨canonical, replayed⟩ := (verify_eq_ok_iff_replay time).mp accepted
  obtain ⟨length, residues, -⟩ := replay_eq_ok_iff.mp replayed
  rw [P.length_claim] at length
  refine ⟨length, canonical, ?_, ?_, ?_⟩
  · intro mu member
    obtain ⟨below, symbol⟩ := residues mu member
    rw [Jacobi.symbol_eq mu P.modulus_odd] at symbol
    exact ⟨below, symbol⟩
  · intro front now begins proper
    rw [time]
    refine verify_eq_tooShort canonical (fun mu member => residues mu (begins.subset member)) ?_ now
    rw [← length]
    exact lt_of_le_of_ne begins.length_le fun same => proper (begins.eq_of_length same)
  · intro extra now more
    rw [time]
    exact verify_eq_tooLong canonical residues length more now

/-- Five squarings take three midpoints. Without the last one there are two, and two numbers behind them
are two too many, though neither represents a residue. -/
theorem length_faults_of_verify_five_squarings :
    let P : Parameters := .rehearsal 5
    let input := Bytes.ofText "abc"
    ∃ output a b c, verify P input ⟨output, [a, b, c], P.time, 0⟩ = .ok () ∧
      verify P input ⟨output, [a, b], P.time, 1⟩ = .error (.tooShort 2) ∧
      verify P input ⟨output, [a, b, c, 0, P.modulus], P.time, 1⟩ = .error (.tooLong 2) := by
  intro P input
  let output : Nat := 293057925139238725475189229128178734863338806
  let a : Nat := 6452540308356166545860170764852135422027181
  let b : Nat := 698062531392971546565790848285871636036085570
  let c : Nat := 328325001744747753801469991470171755227523080
  have accepted : verify P input ⟨output, [a, b, c], P.time, 0⟩ = .ok () := by decide +kernel
  obtain ⟨-, -, -, short, long⟩ := length_faults_of_verify_eq_ok accepted
  exact ⟨output, a, b, c, accepted, short [a, b] 1 ⟨[c], rfl⟩ (by simp),
    long [0, P.modulus] 1 (by simp)⟩

end DelayChain.Delay
