import DelayChain.Delay.Claim
import DelayChain.Delay.Proof

/-!
# Proving sequential work

The output is the hashed input squared as often as the time parameter says, with a report of progress
now and then. Each round publishes the midpoint of the claim at hand and folds both halves, until the
length is one.
-/

set_option autoImplicit false
set_option relaxedAutoImplicit false

namespace DelayChain.Delay

/-- Why no proof can be given. -/
inductive ProvingError where
  | nonResidue (round : Nat)
  deriving DecidableEq

def ProvingError.message : ProvingError → String
  | .nonResidue round =>
    s!"proof element at round {round} is not in the signed quadratic residue group"

/-- The midpoints of a claim from the given round on. -/
def midpoints (P : Parameters) (round : Nat) (claim : Claim) : Except ProvingError (List Nat) :=
  if claim.length ≤ 1 then .ok []
  else
    let mu := P.squarings claim.base (half claim.length)
    if P.IsResidue mu then
      (midpoints P (round + 1) (claim.fold P mu)).map (mu :: ·)
    else .error (.nonResidue round)
termination_by claim.length
decreasing_by simp only [Claim.fold_length, half]; omega

/-- The claim that an output belongs to an input. -/
def Parameters.claim (P : Parameters) (input : Bytes) (output : Nat) : Claim :=
  { base := P.elementOf input, output, length := P.time.toNat }

@[simp] theorem Parameters.base_claim (P : Parameters) (input : Bytes) (output : Nat) :
    (P.claim input output).base = P.elementOf input := by rw [claim]

@[simp] theorem Parameters.length_claim (P : Parameters) (input : Bytes) (output : Nat) :
    (P.claim input output).length = P.time.toNat := by rw [claim]

/-- The number of squarings from one report of progress to the next. -/
def reportEvery : Nat := 1000000

/-- How far an evaluation has come: the number reached, and the percentages reported on the way. -/
structure Evaluation where
  value : Nat
  reports : List Nat
  deriving DecidableEq

/-- The squaring with the given index out of a total. A report behind it takes its percentage in a word. -/
def Evaluation.square (n total index : Nat) (reached : Evaluation) : Evaluation where
  value := reached.value * reached.value % n
  reports :=
    if 0 < index ∧ index % reportEvery = 0 then
      reached.reports ++ [index * 100 % (1 <<< 64) / total]
    else reached.reports

/-- Squares a number as many times as asked for, reports the progress, and takes the element reached. -/
def Parameters.evaluation (P : Parameters) (x count : Nat) : Evaluation :=
  let reached := count.fold (fun index _ => Evaluation.square P.modulus count index) ⟨x, []⟩
  { reached with value := P.canonical reached.value }

/-- The output of the delay function on an input. -/
def Parameters.evaluate (P : Parameters) (input : Bytes) : Nat :=
  (P.evaluation (P.elementOf input) P.time.toNat).value

/-- Evaluates the delay function on an input and proves the result at a time of day. -/
def prove (P : Parameters) (now : Int64) (input : Bytes) : Except ProvingError Proof :=
  let output := P.evaluate input
  (midpoints P 0 (P.claim input output)).map fun mus =>
    { output, midpoints := mus, time := P.time, createdAt := now }

end DelayChain.Delay
