import DelayChain.Proofs.Rounding
import DelayChain.Proofs.ScheduleShape
import DelayChain.Proofs.WindowSpan

/-!
# The pace of blocks against the target

A retarget compares a quotient with one, rounded and brought between a quarter and four. Where target and
time taken are at most two to the fifty-third power this decides as the two numbers themselves would, up to
the last millisecond; and nothing of the times counts but the first and the last of the newest window.
-/

set_option autoImplicit false
set_option relaxedAutoImplicit false

namespace DelayChain.Difficulty.Adjuster

open Binary64

variable {adjuster : Adjuster} {times : List Int64} {first last : Int64} {taken : Int}

theorem exists_spans (nonempty : 0 < adjuster.window) (full : adjuster.window ≤ times.length) :
    ∃ first last, adjuster.Spans times first last := by
  have begins : times.length - adjuster.window < times.length := by omega
  have ends : times ≠ [] := List.length_pos_iff.mp (by omega)
  exact ⟨_, _, full, List.getElem?_eq_getElem begins, List.getLast?_eq_some_getLast ends⟩

private theorem Spans.factor_eq (spans : adjuster.Spans times first last) :
    adjuster.factor? times = some (adjuster.factor (last - first).toInt) := by
  obtain ⟨newest, full, head, ends⟩ := spans.exists_newestWindow
  rw [factor?, full, Option.map_some, span, head, ends]
  rfl

theorem Spans.retarget_eq (spans : adjuster.Spans times first last) (current : UInt32) :
    adjuster.retarget times current =
      max (adjuster.step (adjuster.factor (last - first).toInt) current) 1 := by
  rw [retarget, spans.factor_eq]

theorem target_of_positive (window : Nat) (seconds : Int) (cap : UInt32) :
    0 < (of window seconds cap).target := by
  have least : 1 ≤ (max seconds 1).toNat := Int.toNat_le_toNat (Int.le_max_right seconds 1)
  exact Nat.lt_min.mpr ⟨by omega, by decide⟩

private theorem targetSpan_eq (positive : 0 < adjuster.target)
    (bounded : adjuster.target * adjuster.window ≤ greatestSpan) :
    adjuster.targetSpan = adjuster.target * adjuster.window := by
  have window : adjuster.window ≤ greatestSpan :=
    (Nat.le_mul_of_pos_left adjuster.window positive).trans bounded
  rw [targetSpan, Nat.min_eq_left window, Nat.min_eq_left bounded]

private theorem less_factor_iff (nonempty : 0 < adjuster.window) (positive : 0 < adjuster.target)
    (target : adjuster.target * adjuster.window ≤ 2 ^ 53) (most : taken ≤ 2 ^ 53) :
    (Less one (adjuster.factor taken) ↔ taken < adjuster.target * adjuster.window) ∧
      (Less (adjuster.factor taken) one ↔ adjuster.target * adjuster.window < taken) := by
  have aim : 0 < adjuster.target * adjuster.window := Nat.mul_pos positive nonempty
  rw [factor, targetSpan_eq positive (target.trans (by decide)), ← Nat.cast_mul]
  generalize adjuster.target * adjuster.window = aimed at aim target ⊢
  split
  · next still =>
    exact ⟨iff_of_true (by decide) (by omega), iff_of_false (by decide) (by omega)⟩
  · next passed =>
    obtain ⟨span, rfl⟩ := Int.eq_ofNat_of_zero_le (by omega : 0 ≤ taken)
    have lasting : 0 < span := by omega
    have bounded : span ≤ 2 ^ 53 := by exact_mod_cast most
    have normal := isNormal_div (isNormal_ofNat aim) (isNormal_ofNat lasting)
    obtain ⟨slower, faster⟩ := value_div_ofNat_lt_one_iff aim lasting target bounded
    obtain ⟨above, below⟩ := less_clamp_iff (a := div (ofNat aimed) (ofNat span))
      (by decide : Less quarter one) (by decide : Less one four)
    rw [Int.toNat_natCast, above, below, less_iff_value_lt isNormal_one normal,
      less_iff_value_lt normal isNormal_one, slower, faster]
    exact ⟨Nat.cast_lt.symm, Nat.cast_lt.symm⟩

theorem Spans.toNat_retarget (spans : adjuster.Spans times first last) (nonempty : 0 < adjuster.window)
    (positive : 0 < adjuster.target) (target : adjuster.target * adjuster.window ≤ 2 ^ 53)
    (word : IsWordSpan (last.toInt - first.toInt)) (most : last.toInt - first.toInt ≤ 2 ^ 53)
    (current : UInt32) :
    (adjuster.retarget times current).toNat =
      max (if last.toInt - first.toInt < adjuster.target * adjuster.window then
          if current.toNat < adjuster.cap.toNat then current.toNat + 1 else current.toNat
        else if adjuster.target * adjuster.window < last.toInt - first.toInt then current.toNat - 1
        else current.toNat) 1 := by
  obtain ⟨faster, slower⟩ := less_factor_iff nonempty positive target most
  simp only [spans.retarget_eq, toInt_sub word, toNat_max_one, toNat_step, faster, slower]

/-- Once there is a full window, the newest one has a first and a last time, and with the current
difficulty these are all that the next one depends on. Where target and time taken are two to the
fifty-third power at most, and the time is a span that a word holds, the factor is above one exactly if the
window took less than the target, or no time at all, or less, and below one exactly if it took more. So the
difficulty rises by one, unless that exceeds the cap, or falls by one, or stays, as the two numbers compare;
then it is raised to one at least. -/
theorem retarget_compares_spans (window : Nat) (seconds : Int) (cap : UInt32)
    (times : List Int64) (full : (of window seconds cap).window ≤ times.length)
    (current : UInt32) :
    let adjuster := of window seconds cap
    let next := (adjuster.retarget times current).toNat
    ∃ first last, adjuster.Spans times first last ∧
      (∀ target span : Int, target = adjuster.target * adjuster.window →
        span = last.toInt - first.toInt → target ≤ 2 ^ 53 → span ≤ 2 ^ 53 → IsWordSpan span →
          (∃ factor, adjuster.factor? times = some factor ∧
            (Less one factor ↔ span < target) ∧ (Less factor one ↔ target < span)) ∧
          (span < target → next =
            max (if current.toNat < adjuster.cap.toNat then current.toNat + 1 else current.toNat) 1) ∧
          (target < span → next = max (current.toNat - 1) 1) ∧
          (span = target → next = max current.toNat 1)) ∧
      ∀ others, adjuster.Spans others first last →
        adjuster.retarget others current = adjuster.retarget times current := by
  have nonempty : 0 < (of window seconds cap).window :=
    two_pos.trans_le (two_le_window seconds window cap)
  have positive : 0 < (of window seconds cap).target := target_of_positive window seconds cap
  obtain ⟨first, last, spans⟩ := exists_spans nonempty full
  refine ⟨first, last, spans, ?_, ?_⟩
  · rintro target span rfl rfl targetMost spanMost word
    have bounded : (of window seconds cap).target * (of window seconds cap).window ≤ 2 ^ 53 := by
      exact_mod_cast targetMost
    have moved := spans.toNat_retarget nonempty positive bounded word spanMost current
    have factor := spans.factor_eq
    rw [toInt_sub word] at factor
    refine ⟨⟨_, factor, less_factor_iff nonempty positive bounded spanMost⟩, ?_, ?_, ?_⟩
    · intro fast
      rw [moved, if_pos fast]
    · intro slow
      rw [moved, if_neg slow.not_gt, if_pos slow]
    · intro same
      rw [moved, if_neg same.not_lt, if_neg same.not_gt]
  · intro others spans'
    rw [spans.retarget_eq, spans'.retarget_eq]

/-- Next to the greatest target of two blocks a millisecond decides. -/
theorem retarget_compares_spans_of_a_millisecond :
    (of 2 4503599627370 3).target * (of 2 4503599627370 3).window = 9007199254740000 ∧
      (of 2 4503599627370 3).retarget [77, -1, 9007199254739998] 2 = 3 ∧
      (of 2 4503599627370 3).retarget [5, -1, 9007199254740000] 2 = 1 := by
  obtain ⟨first, last, spans, compares, -⟩ := retarget_compares_spans 2 4503599627370 3
    [77, -1, 9007199254739998] (by decide) 2
  obtain ⟨first', last', spans', compares', -⟩ := retarget_compares_spans 2 4503599627370 3
    [5, -1, 9007199254740000] (by decide) 2
  obtain rfl : (-1 : Int64) = first := Option.some.inj spans.begins
  obtain rfl : (9007199254739998 : Int64) = last := Option.some.inj spans.ends
  obtain rfl : (-1 : Int64) = first' := Option.some.inj spans'.begins
  obtain rfl : (9007199254740000 : Int64) = last' := Option.some.inj spans'.ends
  obtain ⟨-, rises, -, -⟩ := compares 9007199254740000 9007199254739999 rfl rfl (by decide) (by decide)
    (by decide)
  obtain ⟨-, -, falls, -⟩ := compares' 9007199254740000 9007199254740001 rfl rfl (by decide) (by decide)
    (by decide)
  exact ⟨rfl, UInt32.toNat.inj (rises (by decide)), UInt32.toNat.inj (falls (by decide))⟩

end DelayChain.Difficulty.Adjuster
