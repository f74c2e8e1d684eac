/-!
# The difficulty schedule

The difficulty as a function of the height. It changes at recorded heights only, and records are
made in strictly increasing order, so the difficulty of a height once passed never changes.
-/

set_option autoImplicit false
set_option relaxedAutoImplicit false

namespace DelayChain

/-- A record does not stand above the last one. -/
structure ScheduleError where
  last : UInt64
  height : UInt64
  deriving DecidableEq

def ScheduleError.message (error : ScheduleError) : String :=
  s!"schedule entry at height {error.height} does not follow the last entry at {error.last}"

/-- The difficulty from height zero on, and the later changes, newest first. -/
structure Schedule where
  initial : UInt32
  changes : List (UInt64 × UInt32)
  deriving DecidableEq

namespace Schedule

/-- One difficulty for all heights. -/
def constant (initial : UInt32) : Schedule := ⟨initial, []⟩

/-- The newest entry, a height and its difficulty. -/
def latest (schedule : Schedule) : UInt64 × UInt32 :=
  schedule.changes.head?.getD (0, schedule.initial)

/-- Every entry, in the order of the heights. -/
def entries (schedule : Schedule) : List (UInt64 × UInt32) :=
  (0, schedule.initial) :: schedule.changes.reverse

/-- The difficulty at a height: that of the last entry at or below it. -/
def difficultyAt (schedule : Schedule) (height : UInt64) : UInt32 :=
  ((schedule.changes.find? (·.1 ≤ height)).map (·.2)).getD schedule.initial

/-- Adds an entry above all others. -/
def record (schedule : Schedule) (height : UInt64) (difficulty : UInt32) :
    Except ScheduleError Schedule :=
  if height ≤ schedule.latest.1 then .error ⟨schedule.latest.1, height⟩
  else .ok { schedule with changes := (height, difficulty) :: schedule.changes }

/-- Records entries one by one, up to the first that is refused. -/
def recordAll (schedule : Schedule) : List (UInt64 × UInt32) → Except ScheduleError Schedule
  | [] => .ok schedule
  | (height, difficulty) :: rest =>
    match schedule.record height difficulty with
    | .error error => .error error
    | .ok schedule => schedule.recordAll rest

end Schedule

end DelayChain
