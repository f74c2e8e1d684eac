import DelayChain.Proofs.Pace

/-!
# Blocks at one distance

The target counts one block time for every block of a window, but between the first and the last of them
there is one gap less. So a chain whose blocks keep the block time to the millisecond counts as too fast,
and its difficulty rises to the cap; what keeps the difficulty is a window whose gaps together make up the
target.
-/

set_option autoImplicit false
set_option relaxedAutoImplicit false

namespace DelayChain.Difficulty.Adjuster

variable {adjuster : Adjuster} {times window : List Int64} {distance : Int} {current : UInt32}

/-- Each time follows the one before at the same distance. -/
def Spaced (distance : Int) (times : List Int64) : Prop :=
  times.IsChain fun earlier later => later.toInt = earlier.toInt + distance

instance (distance : Int) (times : List Int64) : Decidable (Spaced distance times) :=
  inferInstanceAs (Decidable (List.IsChain _ _))

/-- There is a full window, and the blocks of the newest one follow one another at the same distance. -/
def Keeps (adjuster : Adjuster) (times : List Int64) (distance : Int) : Prop :=
  ∃ window, adjuster.newestWindow? times = some window ∧ Spaced distance window

private theorem Spaced.elapsed_cons {first : Int64} {rest : List Int64}
    (spaced : Spaced distance (first :: rest)) :
    elapsed (first :: rest) = rest.length * distance := by
  induction rest generalizing first with
  | nil =>
    rw [List.length_nil, Nat.cast_zero, zero_mul]
    exact sub_self first.toInt
  | cons second rest ih =>
    obtain ⟨gap, spaced⟩ := List.isChain_cons_cons.mp spaced
    have later := ih spaced
    have same : elapsed (first :: second :: rest) = elapsed (second :: rest) + distance := by
      simp only [elapsed, List.getLast?_cons_cons, List.head?_cons, Option.getD_some, gap]
      ring
    rw [same, later, List.length_cons]
    push_cast
    ring

private theorem newestWindow_eq_some_iff :
    adjuster.newestWindow? times = some window ↔
      adjuster.window ≤ times.length ∧ times.drop (times.length - adjuster.window) = window := by
  rw [newestWindow?, Option.ite_none_left_eq_some, Option.some.injEq, Nat.not_lt]

private theorem Keeps.exists_spans (keeps : adjuster.Keeps times distance)
    (nonempty : 0 < adjuster.window) :
    ∃ first last, adjuster.Spans times first last ∧
      last.toInt - first.toInt = distance * (adjuster.window - 1) := by
  obtain ⟨window, newest, spaced⟩ := keeps
  obtain ⟨full, dropped⟩ := newestWindow_eq_some_iff.mp newest
  have length : window.length = adjuster.window := by
    rw [← dropped, List.length_drop]
    omega
  obtain ⟨first, last, spans⟩ := Adjuster.exists_spans nonempty full
  obtain ⟨window', newest', lasts⟩ := spans.exists_elapsed_eq
  obtain rfl : window = window' := Option.some.inj (newest.symm.trans newest')
  refine ⟨first, last, spans, ?_⟩
  cases window with
  | nil =>
    rw [← length] at nonempty
    exact absurd nonempty (Nat.lt_irrefl 0)
  | cons head rest =>
    rw [← lasts, spaced.elapsed_cons, ← length, List.length_cons]
    push_cast
    ring

private theorem Keeps.toNat_retarget (keeps : adjuster.Keeps times distance)
    (nonempty : 0 < adjuster.window)
    (positive : 0 < adjuster.target) (target : adjuster.target * adjuster.window ≤ 2 ^ 53)
    (word : IsWordSpan (distance * (adjuster.window - 1)))
    (most : distance * (adjuster.window - 1) ≤ 2 ^ 53) (current : UInt32) :
    (adjuster.retarget times current).toNat =
      max (if distance * (adjuster.window - 1) < adjuster.target * adjuster.window then
          if current.toNat < adjuster.cap.toNat then current.toNat + 1 else current.toNat
        else if adjuster.target * adjuster.window < distance * (adjuster.window - 1) then
          current.toNat - 1
        else current.toNat) 1 := by
  obtain ⟨first, last, spans, lasts⟩ := keeps.exists_spans nonempty
  rw [← lasts] at word most ⊢
  exact spans.toNat_retarget nonempty positive target word most current

section Bounded

variable (nonempty : 0 < adjuster.window) (positive : 0 < adjuster.target)
  (bounded : adjuster.target * adjuster.window ≤ 2 ^ 53) (least : 1 ≤ current)
  (most : current ≤ adjuster.cap)

include nonempty positive bounded least most

private theorem Keeps.retarget_eq_self_iff (keeps : adjuster.Keeps times distance)
    (word : IsWordSpan (distance * (adjuster.window - 1)))
    (timely : distance * (adjuster.window - 1) ≤ 2 ^ 53) :
    adjuster.retarget times current = current ↔
      distance * (adjuster.window - 1) = adjuster.target * adjuster.window ∨
        (distance * (adjuster.window - 1) < adjuster.target * adjuster.window ∧
          current = adjuster.cap) ∨
        (adjuster.target * adjuster.window < distance * (adjuster.window - 1) ∧ current = 1) := by
  have moved := keeps.toNat_retarget nonempty positive bounded word timely current
  rw [UInt32.le_iff_toNat_le] at least most
  rw [← UInt32.toNat_inj, ← UInt32.toNat_inj, ← UInt32.toNat_inj, moved]
  rw [UInt32.toNat_one] at least ⊢
  generalize distance * ((adjuster.window : Int) - 1) = span
  generalize (adjuster.target : Int) * adjuster.window = target
  rcases lt_trichotomy span target with fast | same | slow
  · rw [if_pos fast]
    split <;> omega
  · rw [if_neg same.not_lt, if_neg same.not_gt]
    omega
  · rw [if_neg slow.not_gt, if_pos slow]
    omega

private theorem Keeps.retarget_on_target (keeps : adjuster.Keeps times adjuster.target) :
    adjuster.retarget times current = if current < adjuster.cap then current + 1 else current := by
  have fast : (adjuster.target : Int) * (adjuster.window - 1) < adjuster.target * adjuster.window := by
    have block : (0 : Int) < adjuster.target := by exact_mod_cast positive
    linarith
  have timely : (adjuster.target : Int) * (adjuster.window - 1) ≤ 2 ^ 53 := by
    have whole : (adjuster.target : Int) * adjuster.window ≤ 2 ^ 53 := by exact_mod_cast bounded
    exact fast.le.trans whole
  have since : 0 ≤ (adjuster.target : Int) * (adjuster.window - 1) := by
    have gaps : (0 : Int) ≤ adjuster.window - 1 := by omega
    exact Int.mul_nonneg (Int.natCast_nonneg _) gaps
  have word : IsWordSpan ((adjuster.target : Int) * (adjuster.window - 1)) := by
    simp only [IsWordSpan, greatestSpan]
    omega
  have moved := keeps.toNat_retarget nonempty positive bounded word timely current
  have room := adjuster.cap.toNat_lt
  rw [UInt32.le_iff_toNat_le] at least most
  rw [UInt32.toNat_one] at least
  rw [if_pos fast] at moved
  rw [← UInt32.toNat_inj, moved]
  by_cases below : current < adjuster.cap
  · have below' := UInt32.lt_iff_toNat_lt.mp below
    rw [if_pos below, if_pos below', UInt32.toNat_add, UInt32.toNat_one, Nat.mod_eq_of_lt (by omega)]
    omega
  · have reached := mt UInt32.lt_iff_toNat_lt.mpr below
    rw [if_neg below, if_neg reached]
    omega

end Bounded

/-- Blocks that follow one another at the target time of one block raise the difficulty by one, as long as
it is below the cap. A distance keeps the difficulty exactly if the gaps of the window, one less than its
blocks, make up the target of the window; or at the cap if they fall short of it, or at one if they exceed
it. That is so as long as a word holds the time of the gaps and it is two to the fifty-third power at
most. -/
theorem retarget_at_one_distance (window : Nat) (seconds : Int) (cap : UInt32) (times : List Int64)
    (distance : Int) (current : UInt32)
    (bounded : (of window seconds cap).target * (of window seconds cap).window ≤ 2 ^ 53)
    (keeps : (of window seconds cap).Keeps times distance) (least : 1 ≤ current)
    (most : current ≤ (of window seconds cap).cap) :
    let adjuster := of window seconds cap
    let target : Int := adjuster.target * adjuster.window
    let span : Int := distance * (adjuster.window - 1)
    (distance = adjuster.target →
      adjuster.retarget times current = if current < adjuster.cap then current + 1 else current) ∧
    (IsWordSpan span → span ≤ 2 ^ 53 → (adjuster.retarget times current = current ↔
      span = target ∨ (span < target ∧ current = adjuster.cap) ∨ (target < span ∧ current = 1))) := by
  have nonempty : 0 < (of window seconds cap).window :=
    two_pos.trans_le (two_le_window seconds window cap)
  have positive : 0 < (of window seconds cap).target := target_of_positive window seconds cap
  refine ⟨?_, keeps.retarget_eq_self_iff nonempty positive bounded least most⟩
  rintro rfl
  exact keeps.retarget_on_target nonempty positive bounded least most

/-- Four blocks a minute apart are too fast for a minute each; four blocks eighty seconds apart are not. -/
theorem retarget_at_one_distance_of_minutes :
    (of 4 60 8).retarget [7, 0, 60000, 120000, 180000] 3 = 4 ∧
      (of 4 60 8).retarget [7, 0, 80000, 160000, 240000] 3 = 3 := by
  obtain ⟨rises, -⟩ := retarget_at_one_distance 4 60 8 [7, 0, 60000, 120000, 180000] 60000 3
    (by decide) ⟨_, rfl, by decide⟩ (by decide) (by decide)
  obtain ⟨-, keeps⟩ := retarget_at_one_distance 4 60 8 [7, 0, 80000, 160000, 240000] 80000 3
    (by decide) ⟨_, rfl, by decide⟩ (by decide) (by decide)
  exact ⟨rises rfl, (keeps (by decide) (by decide)).mpr (.inl (by decide))⟩

/-- The target time of one block is not a distance that keeps the difficulty. -/
theorem not_fixed_on_target :
    ¬∀ (window : Nat) (seconds : Int) (cap : UInt32) (times : List Int64) (current : UInt32),
      (of window seconds cap).target * (of window seconds cap).window ≤ 2 ^ 53 → 1 ≤ current →
      current ≤ (of window seconds cap).cap →
      (of window seconds cap).Keeps times (of window seconds cap).target →
        (of window seconds cap).retarget times current = current := by
  intro fixed
  have kept := fixed 4 60 8 [0, 60000, 120000, 180000] 3 (by decide) (by decide) (by decide)
    ⟨_, rfl, by decide⟩
  exact absurd kept (by decide +kernel)

end DelayChain.Difficulty.Adjuster
