import Mathlib.Logic.Basic
import DelayChain.Node.Validation

/-!
# What the checks of a block decide

Each check passes exactly under a conjunction of plain conditions on the block. Later proofs read a
passed check through these conditions, and establish them to pass it, without opening the checks.
-/

set_option autoImplicit false
set_option relaxedAutoImplicit false

namespace DelayChain

namespace Block

variable {block parent : Block}

theorem checkWork_eq_ok_iff {hasher : Hasher} {required : UInt32} :
    block.checkWork hasher required = .ok () ↔
      block.workHash = some (block.computeWorkHash hasher) ∧ required ≤ block.difficulty ∧
        Hasher.Meets (block.computeWorkHash hasher) block.difficulty := by
  unfold checkWork
  cases sealed : block.workHash with
  | none =>
    constructor
    · intro passed
      exact nomatch passed
    · rintro ⟨absurdity, -⟩
      exact nomatch absurdity
  | some stored =>
    by_cases same : stored = block.computeWorkHash hasher
    · by_cases enough : block.difficulty < required
      · simp only [same, ne_eq, not_true_eq_false, if_false, if_pos enough, reduceCtorEq, false_iff]
        rintro ⟨-, least, -⟩
        exact absurd least (UInt32.not_le.mpr enough)
      · by_cases met : Hasher.Meets (block.computeWorkHash hasher) block.difficulty
        · simp only [same, ne_eq, not_true_eq_false, if_false, enough, met, true_iff]
          exact ⟨trivial, UInt32.not_lt.mp enough, trivial⟩
        · simp only [same, ne_eq, not_true_eq_false, if_false, enough, met, not_false_eq_true,
            if_true, reduceCtorEq, and_false]
    · simp only [ne_eq, same, not_false_eq_true, if_true, reduceCtorEq, Option.some.injEq, false_and]

theorem checkDelay_eq_ok_iff {P : Delay.Parameters} {input : DelayInput} :
    block.checkDelay P input = .ok () ↔
      ∃ proof bytes, block.proof = some proof ∧ block.finalized = true ∧ block.time = proof.time ∧
        input.ofBlock? block = some bytes ∧ Delay.verify P bytes proof = .ok () := by
  unfold checkDelay
  constructor
  · intro passed
    cases attached : block.proof with
    | none =>
      rw [attached] at passed
      exact nomatch passed
    | some proof =>
      simp only [attached] at passed
      split at passed
      · exact nomatch passed
      · next finalized =>
        split at passed
        · exact nomatch passed
        · next time =>
          cases drawn : input.ofBlock? block with
          | none =>
            rw [drawn] at passed
            exact nomatch passed
          | some bytes =>
            simp only [drawn] at passed
            cases verified : Delay.verify P bytes proof with
            | error reason =>
              rw [verified] at passed
              exact nomatch passed
            | ok =>
              exact ⟨proof, bytes, rfl, Bool.of_not_eq_false finalized, not_not.mp time, rfl, verified⟩
  · rintro ⟨proof, bytes, attached, finalized, time, drawn, verified⟩
    simp only [attached, finalized, time, drawn, verified, ne_eq, not_true_eq_false, if_false,
      Bool.true_eq_false]

theorem checkExtends_eq_ok_iff :
    block.checkExtends parent = .ok () ↔
      block.height = parent.height + 1 ∧ block.parent = some parent.hash := by
  unfold checkExtends
  by_cases height : block.height = parent.height + 1
  · by_cases link : block.parent = some parent.hash
    · simp only [height, link, ne_eq, not_true_eq_false, if_false, and_self]
    · simp only [height, link, ne_eq, not_true_eq_false, if_false, not_false_eq_true, if_true,
        reduceCtorEq, and_false]
  · simp only [height, ne_eq, not_false_eq_true, if_true, reduceCtorEq, false_and]

theorem checkRequests_eq_ok_iff {keys : Registry} {requests : List Request} :
    checkRequests keys requests = .ok () ↔ ∀ request ∈ requests, keys.check request = .ok () := by
  induction requests with
  | nil => simp only [checkRequests, List.not_mem_nil, false_implies, implies_true]
  | cons request rest ih =>
    rw [checkRequests, List.forall_mem_cons]
    cases keys.check request with
    | error reason => simp only [reduceCtorEq, false_and]
    | ok => simp only [ih, true_and]

end Block

namespace Rules

variable {rules : Rules} {schedule schedule' : Schedule} {parent block : Block}

theorem check_eq_ok_iff :
    rules.check schedule block = .ok () ↔
      block.checkWork rules.hasher (schedule.difficultyAt block.height) = .ok () ∧
        block.hash = block.computeHash rules.hasher ∧ rules.checkRequests block = .ok () ∧
        block.checkDelay rules.delay rules.input = .ok () := by
  unfold check
  cases block.checkWork rules.hasher (schedule.difficultyAt block.height) with
  | error reason => simp only [reduceCtorEq, false_and]
  | ok =>
    by_cases same : block.hash = block.computeHash rules.hasher
    · cases rules.checkRequests block with
      | error invalid => simp only [← same, ne_eq, not_true_eq_false, if_false, reduceCtorEq,
          false_and, and_false]
      | ok =>
        cases block.checkDelay rules.delay rules.input with
        | error reason => simp only [← same, ne_eq, not_true_eq_false, if_false, reduceCtorEq,
            and_false]
        | ok => simp only [← same, ne_eq, not_true_eq_false, if_false, and_self]
    · simp only [ne_eq, same, not_false_eq_true, if_true, reduceCtorEq, false_and, and_false]

theorem checkOn_eq_ok_iff :
    rules.checkOn schedule parent block = .ok () ↔
      block.checkExtends parent = .ok () ∧ rules.check schedule block = .ok () := by
  unfold checkOn
  cases block.checkExtends parent with
  | error reason => simp only [reduceCtorEq, false_and]
  | ok => simp only [true_and]

theorem height_of_checkOn (passed : rules.checkOn schedule parent block = .ok ()) :
    block.height = parent.height + 1 := by
  obtain ⟨standing, -⟩ := checkOn_eq_ok_iff.mp passed
  exact (Block.checkExtends_eq_ok_iff.mp standing).1

theorem checkOn_congr
    (same : schedule.difficultyAt block.height = schedule'.difficultyAt block.height) :
    rules.checkOn schedule parent block = rules.checkOn schedule' parent block := by
  unfold checkOn check
  rw [same]

end Rules

end DelayChain
