import DelayChain.Proofs.Schedule

/-!
# The schedule behind any history of records

Records are called in any order, and each is accepted or refused. The entries are then the initial one and
the calls that stood above everything called before them, in the order of the calls, which is the order of
the heights; and the difficulty of a height is that of the last of the entries at or below it.
-/

set_option autoImplicit false
set_option relaxedAutoImplicit false

namespace DelayChain.Schedule

variable {schedule recorded : Schedule} {height query above : UInt64} {difficulty : UInt32}
  {call entry : UInt64 × UInt32} {calls : List (UInt64 × UInt32)}

/-- The schedule behind a record: where it is refused, the one before. -/
def attempt (schedule : Schedule) (call : UInt64 × UInt32) : Schedule :=
  (schedule.record call.1 call.2).toOption.getD schedule

/-- The schedule behind some records, called one after another. -/
def behind (schedule : Schedule) (calls : List (UInt64 × UInt32)) : Schedule :=
  calls.foldl attempt schedule

/-- The calls that stand above a height and above all calls before them. -/
def climbs (above : UInt64) : List (UInt64 × UInt32) → List (UInt64 × UInt32)
  | [] => []
  | call :: rest => if above < call.1 then call :: climbs call.1 rest else climbs above rest

/-- The last entry of the schedule at or below a height. -/
def floor? (schedule : Schedule) (height : UInt64) : Option (UInt64 × UInt32) :=
  (schedule.entries.filter (·.1 ≤ height)).getLast?

private theorem attempt_eq (schedule : Schedule) (call : UInt64 × UInt32) :
    schedule.attempt call =
      if schedule.latest.1 < call.1 then { schedule with changes := call :: schedule.changes }
      else schedule := by
  unfold attempt record
  by_cases allowed : schedule.latest.1 < call.1
  · rw [if_pos allowed, if_neg (UInt64.not_le.mpr allowed)]
    rfl
  · rw [if_neg allowed, if_pos (UInt64.not_lt.mp allowed)]
    rfl

private theorem latest_attempt (schedule : Schedule) (call : UInt64 × UInt32) :
    (schedule.attempt call).latest =
      if schedule.latest.1 < call.1 then call else schedule.latest := by
  rw [attempt_eq]
  split <;> rfl

private theorem entries_behind (schedule : Schedule) (calls : List (UInt64 × UInt32)) :
    (schedule.behind calls).entries = schedule.entries ++ climbs schedule.latest.1 calls := by
  induction calls generalizing schedule with
  | nil => rw [climbs, List.append_nil]; rfl
  | cons call rest ih =>
    have next : schedule.behind (call :: rest) = (schedule.attempt call).behind rest := rfl
    rw [next, ih, latest_attempt, attempt_eq, climbs]
    by_cases allowed : schedule.latest.1 < call.1
    · simp only [if_pos allowed, entries, List.reverse_cons, List.cons_append, List.append_assoc,
        List.nil_append]
    · simp only [if_neg allowed]

private theorem lt_of_mem_climbs (member : call ∈ climbs above calls) :
    above < call.1 ∧ call ∈ calls := by
  induction calls generalizing above with
  | nil => exact absurd member List.not_mem_nil
  | cons first rest ih =>
    rw [climbs] at member
    split at member
    · next allowed =>
      rcases List.mem_cons.mp member with rfl | later
      · exact ⟨allowed, List.mem_cons_self⟩
      · obtain ⟨higher, among⟩ := ih later
        exact ⟨UInt64.lt_trans allowed higher, List.mem_cons_of_mem _ among⟩
    · obtain ⟨higher, among⟩ := ih member
      exact ⟨higher, List.mem_cons_of_mem _ among⟩

private theorem pairwise_climbs (above : UInt64) (calls : List (UInt64 × UInt32)) :
    (climbs above calls).Pairwise fun earlier later => earlier.1 < later.1 := by
  induction calls generalizing above with
  | nil => exact .nil
  | cons call rest ih =>
    rw [climbs]
    split
    · exact .cons (fun later member => (lt_of_mem_climbs member).1) (ih call.1)
    · exact ih above

private theorem le_latest_behind (schedule : Schedule) (calls : List (UInt64 × UInt32)) :
    schedule.latest.1 ≤ (schedule.behind calls).latest.1 ∧
      ∀ call ∈ calls, call.1 ≤ (schedule.behind calls).latest.1 := by
  induction calls generalizing schedule with
  | nil => exact ⟨UInt64.le_refl _, fun _ member => absurd member List.not_mem_nil⟩
  | cons call rest ih =>
    have next : schedule.behind (call :: rest) = (schedule.attempt call).behind rest := rfl
    obtain ⟨rises, covers⟩ := ih (schedule.attempt call)
    have grown : schedule.latest.1 ≤ (schedule.attempt call).latest.1 ∧
        call.1 ≤ (schedule.attempt call).latest.1 := by
      rw [latest_attempt]
      split
      · next allowed => exact ⟨UInt64.le_of_lt allowed, UInt64.le_refl _⟩
      · next refused => exact ⟨UInt64.le_refl _, UInt64.not_lt.mp refused⟩
    rw [next, List.forall_mem_cons]
    exact ⟨UInt64.le_trans grown.1 rises, UInt64.le_trans grown.2 rises, covers⟩

private theorem latest_mem_entries (schedule : Schedule) : schedule.latest ∈ schedule.entries :=
  List.mem_of_getLast? schedule.getLast?_entries

private theorem le_latest_of_mem
    (rises : schedule.entries.Pairwise fun earlier later => earlier.1 < later.1)
    (member : entry ∈ schedule.entries) : entry.1 ≤ schedule.latest.1 := by
  obtain ⟨front, split⟩ := List.getLast?_eq_some_iff.mp schedule.getLast?_entries
  rw [split] at rises member
  rcases List.mem_append.mp member with earlier | last
  · have lower := (List.pairwise_append.mp rises).2.2 entry earlier _ List.mem_cons_self
    exact UInt64.le_of_lt lower
  · rw [List.mem_singleton.mp last]
    exact UInt64.le_refl _

private theorem map_floor? (schedule : Schedule) (height : UInt64) :
    (schedule.floor? height).map (·.2) = some (schedule.difficultyAt height) := by
  have least : (0 : UInt64) ≤ height := UInt64.zero_le
  rw [floor?, entries, List.filter_cons_of_pos (by exact decide_eq_true least), List.filter_reverse,
    List.getLast?_cons, List.getLast?_reverse, List.head?_filter, difficultyAt]
  cases schedule.changes.find? (·.1 ≤ height) with
  | none => rfl
  | some entry => rfl

private theorem difficultyAt_recorded (made : schedule.record height difficulty = .ok recorded)
    (query : UInt64) :
    recorded.difficultyAt query =
      if query < height then schedule.difficultyAt query else difficulty := by
  by_cases lower : query < height
  · rw [if_pos lower, difficultyAt_of_record_eq_ok made lower]
  · have latest := latest_of_record_eq_ok made
    have reached : recorded.latest.1 ≤ query := by
      rw [latest]
      exact UInt64.not_lt.mp lower
    rw [if_neg lower, difficultyAt_of_latest_le reached, latest]

private theorem exists_record_eq_error_iff :
    (∃ error, schedule.record height difficulty = .error error) ↔ height ≤ schedule.latest.1 := by
  constructor
  · rintro ⟨error, refused⟩
    exact (record_eq_error_iff.mp refused).1
  · intro low
    exact ⟨_, record_eq_error_iff.mpr ⟨low, rfl⟩⟩

section Constant

variable {initial : UInt32}

private theorem entries_behind_constant (initial : UInt32) (calls : List (UInt64 × UInt32)) :
    ((constant initial).behind calls).entries = (0, initial) :: climbs 0 calls :=
  entries_behind (constant initial) calls

private theorem pairwise_entries_behind_constant (initial : UInt32) (calls : List (UInt64 × UInt32)) :
    ((constant initial).behind calls).entries.Pairwise fun earlier later => earlier.1 < later.1 := by
  rw [entries_behind_constant]
  exact .cons (fun later member => (lt_of_mem_climbs member).1) (pairwise_climbs 0 calls)

private theorem le_latest_behind_constant_iff :
    height ≤ ((constant initial).behind calls).latest.1 ↔
      height = 0 ∨ ∃ call ∈ calls, height ≤ call.1 := by
  constructor
  · intro low
    have newest := latest_mem_entries ((constant initial).behind calls)
    rw [entries_behind_constant] at newest
    rcases List.mem_cons.mp newest with first | climbed
    · rw [first] at low
      exact .inl (UInt64.le_zero_iff.mp low)
    · exact .inr ⟨_, (lt_of_mem_climbs climbed).2, low⟩
  · obtain ⟨-, covers⟩ := le_latest_behind (constant initial) calls
    rintro (rfl | ⟨call, among, low⟩)
    · exact UInt64.zero_le
    · exact UInt64.le_trans low (covers call among)

end Constant

/-- Behind any records on a constant schedule, accepted or refused: the entries are the initial one at
height zero and the calls that stood above all calls before them, and their heights rise. The next call is
refused exactly if some entry stands as high, that is, if it is at height zero or some call before it,
accepted or not, stood as high; then the refusal names the newest entry, and nothing changes. An accepted
call adds its entry at the end, and gives its difficulty to its height and all above it and to none below.
The difficulty of a height is always that of the last entry at or below it. -/
theorem recorded_history (initial : UInt32) (calls : List (UInt64 × UInt32)) :
    let schedule := (constant initial).behind calls
    schedule.entries = (0, initial) :: climbs 0 calls ∧
    (schedule.entries.Pairwise fun earlier later => earlier.1 < later.1) ∧
    (∀ height difficulty,
      let next := schedule.attempt (height, difficulty)
      ((∃ error, schedule.record height difficulty = .error error) ↔
        ∃ entry ∈ schedule.entries, height ≤ entry.1) ∧
      ((∃ error, schedule.record height difficulty = .error error) ↔
        height = 0 ∨ ∃ call ∈ calls, height ≤ call.1) ∧
      (∀ error, schedule.record height difficulty = .error error →
        error = ⟨schedule.latest.1, height⟩ ∧ next = schedule) ∧
      ∀ recorded, schedule.record height difficulty = .ok recorded → next = recorded ∧
        recorded.entries = schedule.entries ++ [(height, difficulty)] ∧
        ∀ query, recorded.difficultyAt query =
          if query < height then schedule.difficultyAt query else difficulty) ∧
    ∀ query, (schedule.floor? query).map (·.2) = some (schedule.difficultyAt query) := by
  have rises := pairwise_entries_behind_constant initial calls
  refine ⟨entries_behind_constant initial calls, rises, ?_, map_floor? _⟩
  intro height difficulty
  refine ⟨?_, ?_, ?_, ?_⟩
  · rw [exists_record_eq_error_iff]
    constructor
    · intro low
      exact ⟨_, latest_mem_entries _, low⟩
    · rintro ⟨entry, member, low⟩
      exact UInt64.le_trans low (le_latest_of_mem rises member)
  · rw [exists_record_eq_error_iff]
    exact le_latest_behind_constant_iff
  · intro error refused
    refine ⟨(record_eq_error_iff.mp refused).2, ?_⟩
    rw [attempt, refused]
    rfl
  · intro recorded made
    refine ⟨?_, entries_of_record_eq_ok made, difficultyAt_recorded made⟩
    rw [attempt, made]
    rfl

/-- Four calls, two of them refused: a fifth at the newest height is refused, one above it is taken. -/
theorem recorded_history_of_four_calls :
    let schedule := (constant 2).behind [(10, 3), (5, 4), (10, 9), (20, 1)]
    schedule.entries = [(0, 2), (10, 3), (20, 1)] ∧
      schedule.attempt (20, 7) = schedule ∧
      ∃ recorded, schedule.record 21 7 = .ok recorded ∧
        recorded.difficultyAt 20 = schedule.difficultyAt 20 ∧ recorded.difficultyAt 21 = 7 := by
  obtain ⟨entries, -, calls, -⟩ := recorded_history 2 [(10, 3), (5, 4), (10, 9), (20, 1)]
  obtain ⟨-, -, refused, -⟩ := calls 20 7
  obtain ⟨-, -, -, taken⟩ := calls 21 7
  obtain ⟨-, -, holds⟩ := taken _ rfl
  exact ⟨entries, (refused _ rfl).2, _, rfl, holds 20, holds 21⟩

end DelayChain.Schedule
