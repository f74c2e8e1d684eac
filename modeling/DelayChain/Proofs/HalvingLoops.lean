import Mathlib.Data.Nat.Log
import Mathlib.Order.Bounds.Defs
import DelayChain.Proofs.ProofLength

/-!
# Loops that halve a length

Counting the rounds of a length, proving a claim and checking a proof go round as long as a length is above
one. A pass brings the length down to half, rounded up, or breaks the loop off. So each of the three ends,
and unless it is broken off it makes as many passes as the others: the least exponent that brings a power
of two up to the length. What the recursions give is read off the ends of the loops.
-/

set_option autoImplicit false
set_option relaxedAutoImplicit false

namespace DelayChain.Delay

private theorem rounds_eq_clog (length : Nat) : rounds length = Nat.clog 2 length := by
  fun_induction rounds length with
  | case1 length short => rw [Nat.clog_of_right_le_one short]
  | case2 length long ih =>
    have halved : (length + 2 - 1) / 2 = half length := rfl
    rw [ih, Nat.clog_of_two_le Nat.one_lt_two (show 2 ≤ length by omega), halved]

private theorem isLeast_rounds (length : Nat) : IsLeast {n | length ≤ 2 ^ n} (rounds length) := by
  rw [rounds_eq_clog]
  exact ⟨Nat.le_pow_clog Nat.one_lt_two length, fun n enough => Nat.clog_le_of_le_pow enough⟩

private theorem rounds_eq_log_iff {length : Nat} (positive : 1 ≤ length) :
    rounds length = Nat.log 2 length ↔ ∃ e, length = 2 ^ e := by
  constructor
  · intro same
    have below : 2 ^ Nat.log 2 length ≤ length := Nat.pow_log_le_self 2 (by omega)
    have above : length ≤ 2 ^ rounds length := (isLeast_rounds length).1
    rw [same] at above
    exact ⟨_, Nat.le_antisymm above below⟩
  · rintro ⟨e, rfl⟩
    rw [rounds_eq_clog, Nat.clog_pow 2 e Nat.one_lt_two, Nat.log_pow Nat.one_lt_two]

/-- A loop that goes round as long as a length is above one. A pass halves the length or breaks off. -/
structure HalvingLoop (State Failure : Type) where
  length : State → Nat
  pass : State → Except Failure State
  halves : ∀ {state next : State}, pass state = .ok next → length next = half (length state)

namespace HalvingLoop

variable {State Failure Result : Type} {loop : HalvingLoop State Failure} {state last : State}
  {passes : Nat} {outcome : Except Failure State}

/-- The loop ends from a state after so many passes, in a last state or with what breaks it off. -/
inductive Ends (loop : HalvingLoop State Failure) : State → Nat → Except Failure State → Prop
  | short {state : State} (short : loop.length state ≤ 1) : Ends loop state 0 (.ok state)
  | broken {state : State} {failure : Failure} (long : ¬loop.length state ≤ 1)
      (fails : loop.pass state = .error failure) : Ends loop state 0 (.error failure)
  | again {state next : State} {passes : Nat} {outcome : Except Failure State}
      (long : ¬loop.length state ≤ 1) (goes : loop.pass state = .ok next)
      (rest : Ends loop next passes outcome) : Ends loop state (passes + 1) outcome

theorem exists_ends (loop : HalvingLoop State Failure) (state : State) :
    ∃ passes outcome, loop.Ends state passes outcome := by
  -- the induction is on the length, which a pass halves unless it breaks off
  induction length : loop.length state using Nat.strongRecOn generalizing state with
  | ind n ih =>
    by_cases short : loop.length state ≤ 1
    · exact ⟨0, .ok state, .short short⟩
    · cases goes : loop.pass state with
      | error failure => exact ⟨0, .error failure, .broken short goes⟩
      | ok next =>
        have shorter : loop.length next < n := by
          rw [loop.halves goes, half]
          omega
        obtain ⟨passes, outcome, rest⟩ := ih _ shorter next rfl
        exact ⟨passes + 1, outcome, .again short goes rest⟩

/-- A loop makes at most as many passes as there are rounds, and all of them exactly if it is not broken
off. -/
private theorem Ends.passes_le_and_eq_iff (ends : loop.Ends state passes outcome) :
    passes ≤ rounds (loop.length state) ∧
      (passes = rounds (loop.length state) ↔ ∃ last, outcome = .ok last) := by
  induction ends with
  | @short state short =>
    rw [rounds_of_short short]
    exact ⟨Nat.le_refl 0, iff_of_true rfl ⟨state, rfl⟩⟩
  | broken long fails =>
    rw [rounds_of_long long]
    refine ⟨Nat.zero_le _, iff_of_false (Nat.succ_ne_zero _).symm ?_⟩
    rintro ⟨last, ⟨⟩⟩
  | again long goes rest ih =>
    rw [loop.halves goes] at ih
    rw [rounds_of_long long, Nat.add_le_add_iff_right, Nat.add_right_cancel_iff]
    exact ih

/-- A value that a pass hands on to the next state, or loses to what breaks off, is read off the end. -/
private theorem Ends.eq_bind (value final : State → Except Failure Result)
    (short : ∀ state, loop.length state ≤ 1 → value state = final state)
    (long : ∀ state, ¬loop.length state ≤ 1 → value state = (loop.pass state).bind value)
    (ends : loop.Ends state passes outcome) : value state = outcome.bind final := by
  induction ends with
  | short ended => exact short _ ended
  | broken more fails =>
    rw [long _ more, fails]
    rfl
  | again more goes rest ih =>
    rw [long _ more, goes]
    exact ih

private theorem Ends.count_eq (count : State → Nat)
    (counts : ∀ state next, loop.pass state = .ok next → count next = count state + 1)
    (ends : loop.Ends state passes (.ok last)) : count last = count state + passes := by
  generalize done : Except.ok last = outcome at ends
  induction ends with
  | short =>
    cases done
    rfl
  | broken => cases done
  | again long goes rest ih => rw [ih done, counts _ _ goes, Nat.add_assoc, Nat.add_comm 1]

end HalvingLoop

open HalvingLoop (exists_ends)

/-- A length on the way down, and the number of halvings so far. -/
structure Counting where
  length : Nat
  count : Nat

/-- Counts the rounds of a length. -/
def counting : HalvingLoop Counting Empty where
  length := Counting.length
  pass state := .ok ⟨half state.length, state.count + 1⟩
  halves := by
    rintro state next ⟨⟩
    rfl

/-- The claim at hand, and the midpoints found so far. -/
structure Proving where
  claim : Claim
  found : List Nat

/-- Finds the midpoint of the claim at hand and folds the claim with it. -/
def Proving.pass (P : Parameters) (state : Proving) : Except ProvingError Proving :=
  let mu := state.claim.midpoint P
  if P.IsResidue mu then .ok ⟨state.claim.fold P mu, state.found ++ [mu]⟩
  else .error (.nonResidue state.found.length)

/-- What the recursion gives from here on, behind the midpoints found so far. -/
def Proving.value (P : Parameters) (state : Proving) : Except ProvingError (List Nat) :=
  (midpoints P state.found.length state.claim).map (state.found ++ ·)

/-- The claim at hand, and the index of the midpoint that is used next. -/
structure Checking (mus : List Nat) where
  claim : Claim
  index : Nat
  index_le : index ≤ mus.length

/-- Looks at the next midpoint and folds the claim at hand with it. -/
def Checking.pass (P : Parameters) {mus : List Nat} (state : Checking mus) :
    Except ProofRejection (Checking mus) :=
  if more : state.index < mus.length then
    let mu := mus[state.index]
    if ¬P.IsCanonical mu then .error (.midpointOutOfRange state.index)
    else if ¬P.IsResidue mu then .error (.nonResidue state.index)
    else .ok ⟨state.claim.fold P mu, state.index + 1, more⟩
  else .error (.tooShort mus.length)

/-- What is looked at behind the loop: midpoints that are left, then the single squaring. -/
def Checking.verdict (P : Parameters) {mus : List Nat} (last : Checking mus) :
    Except ProofRejection Unit :=
  if last.index < mus.length then .error (.tooLong (mus.length - last.index))
  else if last.claim.Closes P then .ok ()
  else .error .outputMismatch

/-- What the replay gives from here on, with the midpoints that are left. -/
def Checking.value (P : Parameters) {mus : List Nat} (state : Checking mus) :
    Except ProofRejection Unit :=
  replay P state.index state.claim (mus.drop state.index)

variable {P : Parameters} {mus : List Nat} {passes : Nat}

namespace Proving

variable {state next : Proving}

theorem pass_eq_ok_iff : state.pass P = .ok next ↔ P.IsResidue (state.claim.midpoint P) ∧
    next = ⟨state.claim.fold P (state.claim.midpoint P),
      state.found ++ [state.claim.midpoint P]⟩ := by
  rw [pass]
  by_cases residue : P.IsResidue (state.claim.midpoint P)
  · simp [residue, eq_comm]
  · simp [residue]

private theorem value_of_short (short : state.claim.length ≤ 1) : state.value P = .ok state.found := by
  rw [value, midpoints_of_short short, Except.map, List.append_nil]

private theorem value_eq_bind (long : ¬state.claim.length ≤ 1) :
    state.value P = (state.pass P).bind (value P) := by
  rw [value, midpoints_of_long long, pass]
  by_cases residue : P.IsResidue (state.claim.midpoint P)
  · simp only [residue, if_true, Except.bind, value, List.length_append, List.length_singleton]
    cases midpoints P (state.found.length + 1) (state.claim.fold P (state.claim.midpoint P)) with
    | error failure => rfl
    | ok rest => simp [Except.map]
  · simp only [residue, if_false]
    rfl

end Proving

namespace Checking

variable {state next : Checking mus}

theorem pass_eq_ok_iff :
    state.pass P = .ok next ↔ ∃ more : state.index < mus.length,
      P.IsCanonical mus[state.index] ∧ P.IsResidue mus[state.index] ∧
        next = ⟨state.claim.fold P mus[state.index], state.index + 1, more⟩ := by
  rw [pass]
  by_cases more : state.index < mus.length
  · by_cases inside : P.IsCanonical mus[state.index]
    · by_cases residue : P.IsResidue mus[state.index]
      · simp [more, inside, residue, eq_comm]
      · simp [more, inside, residue]
    · simp [more, inside]
  · simp [more]

private theorem value_eq_bind (long : ¬state.claim.length ≤ 1) :
    state.value P = (state.pass P).bind (value P) := by
  rw [value, pass]
  by_cases more : state.index < mus.length
  · rw [dif_pos more, List.drop_eq_getElem_cons more, replay, if_neg long]
    dsimp only
    split
    · rfl
    split
    · rfl
    · rfl
  · -- no midpoint is left, so the index that the replay names is their number
    have all : state.index = mus.length := Nat.le_antisymm state.index_le (by omega)
    rw [dif_neg more, List.drop_of_length_le (by omega), replay, if_pos (by omega), all]
    rfl

private theorem value_of_short (short : state.claim.length ≤ 1) : state.value P = state.verdict P := by
  rw [value, verdict]
  by_cases more : state.index < mus.length
  · rw [if_pos more, List.drop_eq_getElem_cons more, replay, if_pos short, List.length_drop]
    congr 2
    omega
  · rw [if_neg more, List.drop_of_length_le (by omega), replay, if_neg (by omega)]
    rfl

end Checking

/-- Finds the midpoints of a claim. -/
def proving (P : Parameters) : HalvingLoop Proving ProvingError where
  length state := state.claim.length
  pass := Proving.pass P
  halves goes := by
    obtain ⟨-, rfl⟩ := Proving.pass_eq_ok_iff.mp goes
    rfl

/-- Uses up the midpoints of a proof. -/
def checking (P : Parameters) (mus : List Nat) : HalvingLoop (Checking mus) ProofRejection where
  length state := state.claim.length
  pass := Checking.pass P
  halves goes := by
    obtain ⟨more, -, -, rfl⟩ := Checking.pass_eq_ok_iff.mp goes
    rfl

private theorem midpoints_of_ends {claim : Claim} {outcome : Except ProvingError Proving}
    (ends : (proving P).Ends ⟨claim, []⟩ passes outcome) :
    midpoints P 0 claim = outcome.map Proving.found := by
  have given : Proving.value P ⟨claim, []⟩ = outcome.bind fun last => .ok last.found :=
    ends.eq_bind (Proving.value P) _ (fun _ => Proving.value_of_short) fun _ =>
      Proving.value_eq_bind
  calc midpoints P 0 claim
      = Proving.value P ⟨claim, []⟩ := by
        rw [Proving.value]
        cases midpoints P 0 claim <;> rfl
    _ = outcome.bind fun last => .ok last.found := given
    _ = outcome.map Proving.found := by cases outcome <;> rfl

private theorem replay_of_ends {claim : Claim} {outcome : Except ProofRejection (Checking mus)}
    (ends : (checking P mus).Ends ⟨claim, 0, Nat.zero_le _⟩ passes outcome) :
    replay P 0 claim mus = outcome.bind (Checking.verdict P) :=
  ends.eq_bind (Checking.value P) _ (fun _ => Checking.value_of_short) fun _ =>
    Checking.value_eq_bind

private theorem counting_ends (length : Nat) :
    ∃ last, counting.Ends ⟨length, 0⟩ (rounds length) (.ok last) ∧ last.count = rounds length := by
  obtain ⟨passes, outcome, ends⟩ := exists_ends counting ⟨length, 0⟩
  cases outcome with
  | error failure => exact nomatch failure
  | ok last =>
    have all : passes = rounds length := ends.passes_le_and_eq_iff.2.mpr ⟨last, rfl⟩
    have counted : last.count = 0 + passes := by
      refine ends.count_eq Counting.count ?_
      rintro state next ⟨⟩
      rfl
    rw [all] at ends counted
    exact ⟨last, ends, counted.trans (Nat.zero_add _)⟩

private theorem length_of_midpoints_eq_ok {claim : Claim} (given : midpoints P 0 claim = .ok mus) :
    mus.length = rounds claim.length := by
  obtain ⟨passes, outcome, ends⟩ := exists_ends (proving P) ⟨claim, []⟩
  rw [midpoints_of_ends ends] at given
  cases outcome with
  | error failure => cases given
  | ok last =>
    cases given
    have counted : last.found.length = 0 + passes := by
      refine ends.count_eq (fun state => state.found.length) ?_
      intro state next goes
      obtain ⟨-, rfl⟩ := Proving.pass_eq_ok_iff.mp goes
      rw [List.length_append, List.length_singleton]
    rw [counted, Nat.zero_add]
    exact ends.passes_le_and_eq_iff.2.mpr ⟨last, rfl⟩

/-- The rounds of a length are the least exponent that brings a power of two up to it, which is the
logarithm rounded down for powers of two only, and the loop that counts them ends with that count. The
loops of the prover and of the verifier end as well, for every claim and every proof, with what the prover
and the verifier give; none makes more passes than there are rounds, and one that is not broken off makes
all of them. So a proof has one midpoint for each round. -/
theorem halving_loops_end (P : Parameters) :
    (∀ length, IsLeast {n | length ≤ 2 ^ n} (rounds length) ∧
      (1 ≤ length → (rounds length = Nat.log 2 length ↔ ∃ e, length = 2 ^ e)) ∧
      ∃ last, counting.Ends ⟨length, 0⟩ (rounds length) (.ok last) ∧ last.count = rounds length) ∧
    (∀ claim, ∃ passes ≤ rounds claim.length, ∃ outcome,
      (proving P).Ends ⟨claim, []⟩ passes outcome ∧
        midpoints P 0 claim = outcome.map Proving.found ∧
        (passes = rounds claim.length ↔ ∃ last, outcome = .ok last)) ∧
    (∀ claim mus, ∃ passes ≤ rounds claim.length, ∃ outcome,
      (checking P mus).Ends ⟨claim, 0, Nat.zero_le _⟩ passes outcome ∧
        replay P 0 claim mus = outcome.bind (Checking.verdict P) ∧
        (passes = rounds claim.length ↔ ∃ last, outcome = .ok last)) ∧
    ∀ now input proof, prove P now input = .ok proof →
      proof.midpoints.length = rounds P.time.toNat := by
  refine ⟨fun length => ⟨isLeast_rounds length, rounds_eq_log_iff, counting_ends length⟩, ?_, ?_, ?_⟩
  · intro claim
    obtain ⟨passes, outcome, ends⟩ := exists_ends (proving P) ⟨claim, []⟩
    obtain ⟨within, all⟩ := ends.passes_le_and_eq_iff
    exact ⟨passes, within, outcome, ends, midpoints_of_ends ends, all⟩
  · intro claim mus
    obtain ⟨passes, outcome, ends⟩ := exists_ends (checking P mus) ⟨claim, 0, Nat.zero_le _⟩
    obtain ⟨within, all⟩ := ends.passes_le_and_eq_iff
    exact ⟨passes, within, outcome, ends, replay_of_ends ends, all⟩
  · intro now input proof proved
    obtain ⟨mus, given, rfl⟩ := exists_of_prove_eq_ok proved
    exact length_of_midpoints_eq_ok given

/-- Seventeen squarings take five midpoints, one more than the logarithm rounded down says. -/
theorem halving_loops_end_at_seventeen :
    let P : Parameters := .rehearsal 17
    let input := Bytes.ofText "abc"
    ∃ proof, prove P 0 input = .ok proof ∧ proof.midpoints.length = rounds 17 ∧ rounds 17 = 5 ∧
      Nat.log 2 17 = 4 := by
  intro P input
  let proof : Proof :=
    { output := 528909175644989219007591128040526160823308325
      midpoints :=
        [509269893392723644179243466418885798251071471,
         382135318936329886854389853968200282609732854,
         538056261306778219233019928059353171109419170,
         481023600286847553247718581280368990366690341,
         701002262436489275743889616477915008709113881]
      time := 17
      createdAt := 0 }
  have proved : prove P 0 input = .ok proof := by decide +kernel
  have length : proof.midpoints.length = rounds 17 :=
    (halving_loops_end P).2.2.2 0 input proof proved
  exact ⟨proof, proved, length, length.symm, by decide +kernel⟩

end DelayChain.Delay
