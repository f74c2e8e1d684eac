import DelayChain.Node.Run

/-!
# The command line

A run on this machine: settings from the environment, output and error report on the standard
streams, and the outcome as exit code.
-/

set_option autoImplicit false
set_option relaxedAutoImplicit false

namespace DelayChain.Main

/-- The keys of the settings. -/
def keys : List String :=
  ["VDF_MODULUS", "VDF_TIME_PARAMETER", "VDF_SECURITY_PARAMETER", "VDF_BIND_TIMESTAMP",
   "INITIAL_DIFFICULTY", "MAX_DIFFICULTY", "TARGET_BLOCK_TIME_SECS", "DIFFICULTY_WINDOW",
   "MAX_TXS_PER_BLOCK", "BLOCKS_TO_MINE"]

/-- The settings in the environment. -/
def environment : IO (String → Option String) := do
  let settings ← keys.filterMapM fun key => do
    return (← IO.getEnv key).map fun value => (key, value)
  return fun key => settings.lookup key

/-- This machine: its clock counts the milliseconds since it was started. -/
def machine : Host IO where
  now := do return Int64.ofNat (← IO.monoMsNow)
  timed := fun compute => do
    let start ← IO.monoNanosNow
    let value ← IO.lazyPure compute
    let stop ← IO.monoNanosNow
    return (value, stop - start)
  print := fun text => do
    IO.print text
    (← IO.getStdout).flush

end DelayChain.Main

/-- Runs a node with the settings of the environment. -/
def main : IO UInt32 := do
  let lookup ← DelayChain.Main.environment
  let ended ← DelayChain.Run.perform DelayChain.Main.machine lookup
  IO.eprint ended.report
  return UInt32.ofNat ended.exitCode
