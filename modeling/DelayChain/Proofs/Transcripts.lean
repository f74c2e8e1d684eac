import DelayChain.Proofs.Folding
import DelayChain.Proofs.HalvingLoops

/-!
# What the challenges are drawn from

Prover and verifier are run with the drawing of a challenge as the only step that leaves a record. Every
record holds residues and a word: what is hashed or folded is brought to its representative, and what a
proof brings along is looked at before it is used. A residue fits the width of the modulus, so the text of
a challenge has one length, and its parts can be told apart.
-/

set_option autoImplicit false
set_option relaxedAutoImplicit false

namespace DelayChain

namespace Bytes

private theorem toNat_concat (bytes : Bytes) (byte : UInt8) :
    toNat (bytes ++ [byte]) = 256 * toNat bytes + byte.toNat := by
  simp only [toNat, List.foldl_append, List.foldl_cons, List.foldl_nil]

private theorem toNat_ofNat (n : Nat) : toNat (ofNat n) = n := by
  fun_induction ofNat n with
  | case1 n small =>
    show 256 * 0 + (UInt8.ofNat n).toNat = n
    rw [UInt8.toNat_ofNat']
    omega
  | case2 n large ih =>
    rw [toNat_concat, ih, UInt8.toNat_ofNat']
    omega

private theorem toNat_zeros_append (count : Nat) (bytes : Bytes) :
    toNat (List.replicate count 0 ++ bytes) = toNat bytes := by
  induction count with
  | zero => rfl
  | succ count ih => exact ih

private theorem toNat_padded (width n : Nat) : toNat (padded width n) = n := by
  rw [padded, padLeft, toNat_zeros_append, toNat_ofNat]

private theorem toNat_word (width n : Nat) : toNat (word width n) = n % 256 ^ width := by
  induction width generalizing n with
  | zero => rw [Nat.pow_zero, Nat.mod_one]; rfl
  | succ width ih =>
    rw [Nat.pow_succ', Nat.mod_mul, word, toNat_concat, ih, UInt8.toNat_ofNat']
    omega

private theorem eq_of_padded_eq {width n m : Nat} (same : padded width n = padded width m) : n = m := by
  rw [← toNat_padded width n, same, toNat_padded]

private theorem eq_of_word_eq {width n m : Nat} (hn : n < 256 ^ width) (hm : m < 256 ^ width)
    (same : word width n = word width m) : n = m := by
  rw [← Nat.mod_eq_of_lt hn, ← toNat_word, same, toNat_word, Nat.mod_eq_of_lt hm]

private theorem length_ofNat_le {width n : Nat} (positive : 0 < width) (below : n < 256 ^ width) :
    (ofNat n).length ≤ width := by
  fun_induction ofNat n generalizing width with
  | case1 n small => exact positive
  | case2 n large ih =>
    obtain ⟨rest, rfl⟩ := Nat.exists_eq_succ_of_ne_zero (Nat.ne_of_gt positive)
    rw [Nat.pow_succ'] at below
    have shorter : n / 256 < 256 ^ rest := Nat.div_lt_of_lt_mul below
    have further : 0 < rest := by
      by_contra none
      obtain rfl : rest = 0 := by omega
      omega
    rw [List.length_append, List.length_singleton]
    exact Nat.succ_le_succ (ih further shorter)

private theorem length_padded {width n : Nat} (positive : 0 < width) (below : n < 256 ^ width) :
    (padded width n).length = width := by
  have fits := length_ofNat_le positive below
  rw [padded, padLeft, List.length_append, List.length_replicate]
  omega

end Bytes

namespace Delay

variable {P : Parameters}

private theorem Parameters.width_pos (P : Parameters) : 0 < P.width := by
  simp only [width, bits]
  omega

private theorem Parameters.modulus_lt (P : Parameters) : P.modulus < 256 ^ P.width := by
  have wide : P.modulus.log2 + 1 ≤ 8 * P.width := by
    simp only [width, bits]
    omega
  calc P.modulus < 2 ^ (P.modulus.log2 + 1) := Nat.lt_log2_self
    _ ≤ 2 ^ (8 * P.width) := Nat.pow_le_pow_right (by omega) wide
    _ = 256 ^ P.width := Nat.pow_mul 2 8 P.width

private theorem Parameters.length_padded {n : Nat} (residue : n < P.modulus) :
    (Bytes.padded P.width n).length = P.width :=
  Bytes.length_padded P.width_pos (residue.trans P.modulus_lt)

/-- What a challenge is drawn from: the claim of a round and its midpoint. -/
structure Draw where
  claim : Claim
  midpoint : Nat
  deriving DecidableEq

namespace Draw

def transcript (P : Parameters) (draw : Draw) : Bytes := draw.claim.transcript P draw.midpoint

def challenge (P : Parameters) (draw : Draw) : Nat := draw.claim.challenge P draw.midpoint

/-- The numbers are residues, and the length is a word. -/
structure InRange (P : Parameters) (draw : Draw) : Prop where
  base : draw.claim.base < P.modulus
  length : draw.claim.length < 256 ^ 8
  output : draw.claim.output < P.modulus
  midpoint : draw.midpoint < P.modulus

private theorem length_transcript {draw : Draw} (inRange : draw.InRange P) :
    (draw.transcript P).length = 3 * P.width + 8 := by
  simp only [transcript, Claim.transcript, List.length_append, Bytes.length_word,
    P.length_padded inRange.base, P.length_padded inRange.output,
    P.length_padded inRange.midpoint]
  omega

/-- A transcript falls into parts of known widths, each of which gives back its number. -/
private theorem eq_of_transcript_eq {draw other : Draw} (inRange : draw.InRange P)
    (inRange' : other.InRange P) (same : draw.transcript P = other.transcript P) : draw = other := by
  obtain ⟨⟨base, output, length⟩, midpoint⟩ := draw
  obtain ⟨⟨base', output', length'⟩, midpoint'⟩ := other
  simp only [transcript, Claim.transcript] at same
  obtain ⟨same, midpoints⟩ := List.append_inj' same (by
    rw [P.length_padded inRange.midpoint, P.length_padded inRange'.midpoint])
  obtain ⟨same, outputs⟩ := List.append_inj' same (by
    rw [P.length_padded inRange.output, P.length_padded inRange'.output])
  obtain ⟨bases, lengths⟩ := List.append_inj' same (by
    rw [Bytes.length_word, Bytes.length_word])
  obtain rfl : base = base' := Bytes.eq_of_padded_eq bases
  obtain rfl : length = length' := Bytes.eq_of_word_eq inRange.length inRange'.length lengths
  obtain rfl : output = output' := Bytes.eq_of_padded_eq outputs
  obtain rfl : midpoint = midpoint' := Bytes.eq_of_padded_eq midpoints
  rfl

private theorem challenge_lt (P : Parameters) (draw : Draw) :
    draw.challenge P < 2 ^ P.security.toNat := by
  rw [challenge, Claim.challenge, Nat.one_shiftLeft]
  exact Nat.mod_lt _ (Nat.two_pow_pos _)

/-- Draws a challenge and keeps what it is drawn from, behind what was kept before. -/
def ask (P : Parameters) (draw : Draw) : StateM (List Draw) Nat := do
  modify (· ++ [draw])
  return draw.challenge P

end Draw

/-- The claim of half the length that both halves fold into, by a challenge. -/
def Claim.foldBy (P : Parameters) (claim : Claim) (midpoint challenge : Nat) : Claim :=
  let target :=
    if claim.length % 2 = 1 then claim.output * claim.output % P.modulus else claim.output
  { base := P.canonical (Modular.pow P.modulus claim.base challenge * midpoint)
    output := P.canonical (Modular.pow P.modulus midpoint challenge * target)
    length := half claim.length }

/-- The midpoints of a claim from the given round on, with the challenges asked for. -/
def askMidpoints (P : Parameters) (round : Nat) (claim : Claim) :
    StateM (List Draw) (Except ProvingError (List Nat)) :=
  if claim.length ≤ 1 then pure (.ok [])
  else
    let mu := P.squarings claim.base (half claim.length)
    if P.IsResidue mu then do
      let challenge ← Draw.ask P ⟨claim, mu⟩
      let rest ← askMidpoints P (round + 1) (claim.foldBy P mu challenge)
      return rest.map (mu :: ·)
    else pure (.error (.nonResidue round))
termination_by claim.length
decreasing_by simp only [Claim.foldBy, half]; omega

/-- Evaluates the delay function and proves the result, with the challenges asked for. -/
def askProof (P : Parameters) (now : Int64) (input : Bytes) :
    StateM (List Draw) (Except ProvingError Proof) := do
  let output := P.evaluate input
  let mus ← askMidpoints P 0 (P.claim input output)
  return mus.map fun mus => { output, midpoints := mus, time := P.time, createdAt := now }

/-- Replays a claim with the midpoints from the given index on, with the challenges asked for. -/
def askReplay (P : Parameters) (index : Nat) (claim : Claim) :
    List Nat → StateM (List Draw) (Except ProofRejection Unit)
  | [] =>
    if 1 < claim.length then pure (.error (.tooShort index))
    else if P.canonical (claim.base * claim.base) = claim.output then pure (.ok ())
    else pure (.error .outputMismatch)
  | mu :: rest =>
    if claim.length ≤ 1 then pure (.error (.tooLong (rest.length + 1)))
    else if ¬P.IsCanonical mu then pure (.error (.midpointOutOfRange index))
    else if ¬P.IsResidue mu then pure (.error (.nonResidue index))
    else do
      let challenge ← Draw.ask P ⟨claim, mu⟩
      askReplay P (index + 1) (claim.foldBy P mu challenge) rest

/-- Accepts a proof for an input or names its first fault, with the challenges asked for. -/
def askVerdict (P : Parameters) (input : Bytes) (proof : Proof) :
    StateM (List Draw) (Except ProofRejection Unit) :=
  if proof.time ≠ P.time then pure (.error (.timeMismatch P.time proof.time))
  else if ¬P.IsCanonical proof.output then pure (.error .outputOutOfRange)
  else askReplay P 0 (P.claim input proof.output) proof.midpoints

/-- Whatever was kept before, the run comes to the result, and behind that it keeps as many draws as said,
all of them in range. -/
def Asks (P : Parameters) (count : Nat) {α : Type} (run : StateM (List Draw) α) (result : α) : Prop :=
  ∀ before, ∃ asked, run.run before = (result, before ++ asked) ∧ asked.length = count ∧
    ∀ draw ∈ asked, draw.InRange P

namespace Asks

variable {α β : Type} {count more : Nat}

private theorem pure (P : Parameters) (value : α) : Asks P 0 (Pure.pure value) value :=
  fun before => ⟨[], by rw [List.append_nil]; rfl, rfl, by simp⟩

private theorem ask {draw : Draw} (inRange : draw.InRange P) :
    Asks P 1 (draw.ask P) (draw.challenge P) :=
  fun before => ⟨[draw], rfl, rfl, by simpa using inRange⟩

private theorem bind {run : StateM (List Draw) α} {next : α → StateM (List Draw) β} {value : α}
    {result : β} (first : Asks P count run value) (second : Asks P more (next value) result) :
    Asks P (more + count) (run >>= next) result := by
  intro before
  obtain ⟨asked, ran, counted, inRange⟩ := first before
  obtain ⟨asked', ran', counted', inRange'⟩ := second (before ++ asked)
  refine ⟨asked ++ asked', ?_, ?_, ?_⟩
  · rw [StateT.run_bind, ran, ← List.append_assoc]
    exact ran'
  · rw [List.length_append, counted, counted', Nat.add_comm]
  · intro draw member
    rcases List.mem_append.mp member with earlier | later
    · exact inRange draw earlier
    · exact inRange' draw later

private theorem map {run : StateM (List Draw) α} {value : α} (asks : Asks P count run value)
    (f : α → β) :
    Asks P count (run >>= fun value => Pure.pure (f value)) (f value) := by
  have both : Asks P (0 + count) (run >>= fun value => Pure.pure (f value)) (f value) :=
    .bind asks (.pure P (f value))
  rwa [Nat.zero_add] at both

end Asks

private theorem lt_modulus_of_isCanonical {value : Nat} (canonical : P.IsCanonical value) :
    value < P.modulus := by
  simp only [Parameters.IsCanonical] at canonical
  omega

private theorem inRange_of_canonical {claim : Claim} {midpoint : Nat} (canonical : claim.Canonical P)
    (word : claim.length < 256 ^ 8) (below : P.IsCanonical midpoint) :
    Draw.InRange P ⟨claim, midpoint⟩ :=
  ⟨lt_modulus_of_isCanonical canonical.base, word, lt_modulus_of_isCanonical canonical.output,
    lt_modulus_of_isCanonical below⟩

private theorem half_lt {length bound : Nat} (below : length < bound) : half length < bound := by
  simp only [half]
  omega

private theorem askMidpoints_of_short {round : Nat} {claim : Claim} (short : claim.length ≤ 1) :
    askMidpoints P round claim = pure (.ok []) := by
  rw [askMidpoints, if_pos short]

private theorem askMidpoints_of_residue {round : Nat} {claim : Claim} (long : ¬claim.length ≤ 1)
    (residue : P.IsResidue (claim.midpoint P)) :
    askMidpoints P round claim = do
      let challenge ← Draw.ask P ⟨claim, claim.midpoint P⟩
      let rest ← askMidpoints P (round + 1) (claim.foldBy P (claim.midpoint P) challenge)
      return rest.map (claim.midpoint P :: ·) := by
  rw [askMidpoints, if_neg long]
  exact if_pos residue

private theorem askMidpoints_of_not_residue {round : Nat} {claim : Claim} (long : ¬claim.length ≤ 1)
    (other : ¬P.IsResidue (claim.midpoint P)) :
    askMidpoints P round claim = pure (.error (.nonResidue round)) := by
  rw [askMidpoints, if_neg long]
  exact if_neg other

private theorem askReplay_cons_of_residue {index : Nat} {claim : Claim} {mu : Nat}
    (long : ¬claim.length ≤ 1) (residue : P.IsResidue mu) (rest : List Nat) :
    askReplay P index claim (mu :: rest) = (do
      let challenge ← Draw.ask P ⟨claim, mu⟩
      askReplay P (index + 1) (claim.foldBy P mu challenge) rest) := by
  rw [askReplay, if_neg long, if_neg (not_not.mpr residue.1), if_neg (not_not.mpr residue)]

private theorem asks_midpoints {state : Proving} {passes : Nat} {outcome : Except ProvingError Proving}
    (ends : (proving P).Ends state passes outcome) (canonical : state.claim.Canonical P)
    (word : state.claim.length < 256 ^ 8) :
    Asks P passes (askMidpoints P state.found.length state.claim)
      (midpoints P state.found.length state.claim) := by
  -- the induction is on the passes; a folded claim is canonical again, whatever the challenge was
  induction ends with
  | short short =>
    rw [askMidpoints_of_short short, midpoints_of_short short]
    exact .pure P _
  | @broken state failure long fails =>
    have other : ¬P.IsResidue (state.claim.midpoint P) := by
      intro residue
      cases fails.symm.trans (Proving.pass_eq_ok_iff.mpr ⟨residue, rfl⟩)
    rw [askMidpoints_of_not_residue long other, midpoints_of_long long, if_neg other]
    exact .pure P _
  | @again state next passes outcome long goes rest ih =>
    obtain ⟨residue, rfl⟩ := Proving.pass_eq_ok_iff.mp goes
    have asks := ih (Claim.canonical_fold P state.claim _) (half_lt word)
    rw [List.length_append, List.length_singleton] at asks
    rw [askMidpoints_of_residue long residue, midpoints_of_long long, if_pos residue]
    exact .bind (.ask (inRange_of_canonical canonical word residue.1)) (asks.map _)

private theorem asks_replay {mus : List Nat} {state : Checking mus} {passes : Nat}
    {outcome : Except ProofRejection (Checking mus)}
    (ends : (checking P mus).Ends state passes outcome) (canonical : state.claim.Canonical P)
    (word : state.claim.length < 256 ^ 8) :
    Asks P passes (askReplay P state.index state.claim (mus.drop state.index))
      (replay P state.index state.claim (mus.drop state.index)) := by
  -- a pass that breaks off looks at its midpoint and asks for nothing
  induction ends with
  | @short state short =>
    have short : state.claim.length ≤ 1 := short
    cases mus.drop state.index with
    | nil =>
      rw [askReplay, replay, if_neg (Nat.not_lt.mpr short), if_neg (Nat.not_lt.mpr short)]
      split <;> exact .pure P _
    | cons mu rest =>
      rw [askReplay, replay, if_pos short, if_pos short]
      exact .pure P _
  | @broken state failure long fails =>
    have long : ¬state.claim.length ≤ 1 := long
    by_cases more : state.index < mus.length
    · rw [List.drop_eq_getElem_cons more, askReplay, replay, if_neg long, if_neg long]
      split
      · exact .pure P _
      split
      · exact .pure P _
      · next inside residue =>
        have goes : state.pass P = .ok _ :=
          Checking.pass_eq_ok_iff.mpr ⟨more, not_not.mp inside, not_not.mp residue, rfl⟩
        cases fails.symm.trans goes
    · rw [List.drop_of_length_le (Nat.not_lt.mp more), askReplay, replay,
        if_pos (Nat.not_le.mp long), if_pos (Nat.not_le.mp long)]
      exact .pure P _
  | @again state next passes outcome long goes rest ih =>
    obtain ⟨more, inside, residue, rfl⟩ := Checking.pass_eq_ok_iff.mp goes
    rw [List.drop_eq_getElem_cons more, askReplay_cons_of_residue long residue,
      replay_cons_of_isResidue long residue]
    exact .bind (.ask (inRange_of_canonical canonical word inside))
      (ih (Claim.canonical_fold P state.claim _) (half_lt word))

private theorem exists_asks_proof (P : Parameters) (now : Int64) (input : Bytes) :
    ∃ passes outcome, (proving P).Ends ⟨P.claim input (P.evaluate input), []⟩ passes outcome ∧
      Asks P passes (askProof P now input) (prove P now input) := by
  obtain ⟨passes, outcome, ends⟩ :=
    (proving P).exists_ends ⟨P.claim input (P.evaluate input), []⟩
  have canonical : (P.claim input (P.evaluate input)).Canonical P :=
    ⟨P.isCanonical_canonical _, P.isCanonical_canonical _⟩
  exact ⟨passes, outcome, ends, (asks_midpoints ends canonical P.time.toNat_lt).map _⟩

private theorem asks_verdict_of_refused (input : Bytes) {proof : Proof}
    (refused : ¬(proof.time = P.time ∧ P.IsCanonical proof.output)) :
    Asks P 0 (askVerdict P input proof) (verify P input proof) := by
  rw [askVerdict, verify]
  split
  · exact .pure P _
  split
  · exact .pure P _
  · next time inside => exact absurd ⟨not_not.mp time, not_not.mp inside⟩ refused

private theorem exists_asks_verdict (input : Bytes) {proof : Proof} (time : proof.time = P.time)
    (inside : P.IsCanonical proof.output) :
    ∃ passes outcome,
      (checking P proof.midpoints).Ends ⟨P.claim input proof.output, 0, Nat.zero_le _⟩ passes
        outcome ∧
      Asks P passes (askVerdict P input proof) (verify P input proof) := by
  obtain ⟨passes, outcome, ends⟩ := (checking P proof.midpoints).exists_ends
    ⟨P.claim input proof.output, 0, Nat.zero_le _⟩
  have canonical : (P.claim input proof.output).Canonical P := ⟨P.isCanonical_canonical _, inside⟩
  refine ⟨passes, outcome, ends, ?_⟩
  rw [askVerdict, verify, if_neg (not_not.mpr time), if_neg (not_not.mpr time),
    if_neg (not_not.mpr inside), if_neg (not_not.mpr inside)]
  exact asks_replay ends canonical P.time.toNat_lt

/-- Every challenge that a proof or a verdict asks for is drawn from three residues and a word, whatever the
input is and whatever the proof brings along. The prover draws one for each pass of its loop, and so does
the verifier, unless it refuses the proof before its loop and draws none. Texts of such draws have one
length, and different draws have different texts. A challenge has no more bits than the security parameter
says. -/
theorem transcripts_unambiguous (P : Parameters) :
    (∀ now input, ∃ asked, (askProof P now input).run [] = (prove P now input, asked) ∧
      (∀ draw ∈ asked, draw.InRange P) ∧
      ∃ outcome, (proving P).Ends ⟨P.claim input (P.evaluate input), []⟩ asked.length outcome) ∧
    (∀ input proof, ∃ asked, (askVerdict P input proof).run [] = (verify P input proof, asked) ∧
      (∀ draw ∈ asked, draw.InRange P) ∧
      if proof.time = P.time ∧ P.IsCanonical proof.output then
        ∃ outcome, (checking P proof.midpoints).Ends
          ⟨P.claim input proof.output, 0, Nat.zero_le _⟩ asked.length outcome
      else asked = []) ∧
    (∀ draw : Draw, draw.InRange P → (draw.transcript P).length = 3 * P.width + 8) ∧
    (∀ draw other : Draw, draw.InRange P → other.InRange P → draw ≠ other →
      draw.transcript P ≠ other.transcript P) ∧
    ∀ draw : Draw, draw.challenge P < 2 ^ P.security.toNat := by
  refine ⟨?_, ?_, fun draw inRange => Draw.length_transcript inRange, ?_, Draw.challenge_lt P⟩
  · intro now input
    obtain ⟨passes, outcome, ends, asks⟩ := exists_asks_proof P now input
    obtain ⟨asked, ran, rfl, inRange⟩ := asks []
    exact ⟨asked, ran, inRange, outcome, ends⟩
  · intro input proof
    by_cases begun : proof.time = P.time ∧ P.IsCanonical proof.output
    · obtain ⟨passes, outcome, ends, asks⟩ := exists_asks_verdict input begun.1 begun.2
      obtain ⟨asked, ran, rfl, inRange⟩ := asks []
      refine ⟨asked, ran, inRange, ?_⟩
      rw [if_pos begun]
      exact ⟨outcome, ends⟩
    · obtain ⟨asked, ran, none, inRange⟩ := asks_verdict_of_refused input begun []
      refine ⟨asked, ran, inRange, ?_⟩
      rw [if_neg begun]
      exact List.length_eq_zero_iff.mp none
  · intro draw other inRange inRange' apart same
    exact apart (Draw.eq_of_transcript_eq inRange inRange' same)

/-- Five squarings take three challenges, at the lengths five, three and two. -/
example : ((askProof (.rehearsal 5) 0 (Bytes.ofText "abc")).run []).2.map (·.claim.length) =
    [5, 3, 2] := by decide +kernel

end Delay

end DelayChain
