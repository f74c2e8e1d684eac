import DelayChain.Difficulty.Binary64

/-!
# Retargeting

After a full window of blocks the time they took is compared with the target. The difficulty rises
by one where they came faster, falls by one where they came slower, never below one and never by a
rise above the cap.
-/

set_option autoImplicit false
set_option relaxedAutoImplicit false

namespace DelayChain.Difficulty

/-- The greatest span of time, in milliseconds, that a signed word holds. -/
def greatestSpan : Nat := 0x7fffffffffffffff

/-- How the difficulty follows the pace of blocks. -/
structure Adjuster where
  /-- The number of blocks whose time is measured. -/
  window : Nat
  /-- The time that one block should take, in milliseconds. -/
  target : Nat
  /-- The difficulty that no rise exceeds. -/
  cap : UInt32
  deriving DecidableEq

namespace Adjuster

def usualWindow : Nat := 2016

/-- The usual time of a block, in seconds. -/
def usualSeconds : Int := 600

/-- The usual cap: the length of a digest. -/
def usualCap : UInt32 := 64

/-- An adjuster with a window of two blocks or more, a target of one second or more, and a cap of
one or more. -/
def of (window : Nat) (seconds : Int) (cap : UInt32) : Adjuster where
  window := max window 2
  target := min ((max seconds 1).toNat * 1000) greatestSpan
  cap := max cap 1

/-- The adjuster of the usual settings. -/
def usual : Adjuster := of usualWindow usualSeconds usualCap

/-- The time that a whole window should take, in milliseconds. -/
def targetSpan (adjuster : Adjuster) : Nat :=
  min (adjuster.target * min adjuster.window greatestSpan) greatestSpan

/-- The times of the newest window; none until there is a full one. -/
def newestWindow? (adjuster : Adjuster) (times : List Int64) : Option (List Int64) :=
  if times.length < adjuster.window then none
  else some (times.drop (times.length - adjuster.window))

/-- The time between the first and the last of some blocks, as a difference in words: it goes round where
the two are too far apart. -/
def span (times : List Int64) : Int :=
  (times.getLast?.getD 0 - times.head?.getD 0).toInt

/-- The target over the time taken, between one quarter and four. A window that took no time counts
as four. -/
def factor (adjuster : Adjuster) (taken : Int) : Binary64 :=
  if taken ≤ 0 then Binary64.four
  else
    Binary64.clamp Binary64.quarter Binary64.four
      (Binary64.div (Binary64.ofNat adjuster.targetSpan) (Binary64.ofNat taken.toNat))

/-- The factor over the newest window of the given times; none until there is a full one. -/
def factor? (adjuster : Adjuster) (times : List Int64) : Option Binary64 :=
  (adjuster.newestWindow? times).map fun window => adjuster.factor (span window)

/-- One step of the difficulty by a factor. -/
def step (adjuster : Adjuster) (factor : Binary64) (current : UInt32) : UInt32 :=
  if Binary64.Less Binary64.one factor then
    if adjuster.cap ≤ current then current else current + 1
  else if Binary64.Less factor Binary64.one then
    if current = 0 then 0 else current - 1
  else current

/-- The next difficulty after blocks of the given times; the current one until there is a full
window. -/
def retarget (adjuster : Adjuster) (times : List Int64) (current : UInt32) : UInt32 :=
  match adjuster.factor? times with
  | none => current
  | some factor => max (adjuster.step factor current) 1

end Adjuster

end DelayChain.Difficulty
