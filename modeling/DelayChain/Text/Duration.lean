/-!
# Durations

A duration is shown in the greatest of the units second, millisecond, microsecond and nanosecond
that it reaches, with as many decimals as it needs.
-/

set_option autoImplicit false
set_option relaxedAutoImplicit false

namespace DelayChain.Text.Duration

/-- The decimals of a part of a unit, given the number of decimals the unit has, without trailing
zeros. -/
def decimals (places part : Nat) : List Char :=
  let digits := Nat.toDigits 10 part
  let full := List.replicate (places - digits.length) '0' ++ digits
  (full.reverse.dropWhile (· == '0')).reverse

/-- A duration in a unit of the given size in nanoseconds, with at most as many decimals as the size
has zeros. -/
def inUnit (places size : Nat) (unit : String) (nanoseconds : Nat) : String :=
  let part := decimals places (nanoseconds % size)
  toString (nanoseconds / size) ++
    (if part = [] then "" else String.ofList ('.' :: part)) ++ unit

/-- The text of a duration in nanoseconds. -/
def text (nanoseconds : Nat) : String :=
  if 1000000000 ≤ nanoseconds then inUnit 9 1000000000 "s" nanoseconds
  else if 1000000 ≤ nanoseconds then inUnit 6 1000000 "ms" nanoseconds
  else if 1000 ≤ nanoseconds then inUnit 3 1000 "µs" nanoseconds
  else inUnit 0 1 "ns" nanoseconds

end DelayChain.Text.Duration
