import DelayChain.Difficulty.Schedule

/-!
# Laws of the difficulty schedule

A record stands above every earlier one. It leaves the difficulty of all heights below it as it is,
and becomes the newest entry.
-/

set_option autoImplicit false
set_option relaxedAutoImplicit false

namespace DelayChain.Schedule

variable {schedule recorded : Schedule} {height below : UInt64} {difficulty : UInt32}

theorem record_eq_ok_iff :
    schedule.record height difficulty = .ok recorded ↔
      schedule.latest.1 < height ∧
        recorded = { schedule with changes := (height, difficulty) :: schedule.changes } := by
  unfold record
  split
  · next refused =>
    constructor
    · intro made
      exact nomatch made
    · rintro ⟨above, -⟩
      exact absurd refused (UInt64.not_le.mpr above)
  · next allowed =>
    constructor
    · intro made
      exact ⟨UInt64.not_le.mp allowed, (Except.ok.inj made).symm⟩
    · rintro ⟨-, rfl⟩
      rfl

theorem record_eq_error_iff {error : ScheduleError} :
    schedule.record height difficulty = .error error ↔
      height ≤ schedule.latest.1 ∧ error = ⟨schedule.latest.1, height⟩ := by
  unfold record
  split
  · next refused =>
    constructor
    · intro made
      exact ⟨refused, (Except.error.inj made).symm⟩
    · rintro ⟨-, rfl⟩
      rfl
  · next allowed =>
    constructor
    · intro made
      exact nomatch made
    · rintro ⟨refused, -⟩
      exact absurd refused allowed

theorem latest_of_record_eq_ok (made : schedule.record height difficulty = .ok recorded) :
    recorded.latest = (height, difficulty) := by
  obtain ⟨-, rfl⟩ := record_eq_ok_iff.mp made
  rfl

theorem getLast?_entries (schedule : Schedule) :
    schedule.entries.getLast? = some schedule.latest := by
  obtain ⟨initial, changes⟩ := schedule
  cases changes with
  | nil => rfl
  | cons newest older =>
    rw [entries, List.reverse_cons, ← List.cons_append, List.getLast?_concat]
    rfl

theorem entries_of_record_eq_ok (made : schedule.record height difficulty = .ok recorded) :
    recorded.entries = schedule.entries ++ [(height, difficulty)] := by
  obtain ⟨-, rfl⟩ := record_eq_ok_iff.mp made
  simp only [entries, List.reverse_cons, List.cons_append]

theorem difficultyAt_of_latest_le (reached : schedule.latest.1 ≤ height) :
    schedule.difficultyAt height = schedule.latest.2 := by
  obtain ⟨initial, changes⟩ := schedule
  cases changes with
  | nil => rfl
  | cons newest older =>
    have found : newest.1 ≤ height := reached
    simp only [difficultyAt, List.find?_cons, found, decide_true, Option.map_some,
      Option.getD_some, latest, List.head?_cons]

theorem difficultyAt_of_record_eq_ok (made : schedule.record height difficulty = .ok recorded)
    (lower : below < height) : recorded.difficultyAt below = schedule.difficultyAt below := by
  obtain ⟨-, rfl⟩ := record_eq_ok_iff.mp made
  have skipped : ¬height ≤ below := UInt64.not_le.mpr lower
  simp only [difficultyAt, List.find?_cons, skipped, decide_false]

end DelayChain.Schedule
