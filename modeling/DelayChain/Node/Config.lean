import DelayChain.Node.Cycle
import DelayChain.Text.Blank
import DelayChain.Text.Quoted

/-!
# Settings of a node

Settings are texts under keys. A key that is not set has its usual value; a text that is set is
trimmed and then has to be a numeral or a truth value. The first fault in a fixed order is reported,
with the text as it was given.
-/

set_option autoImplicit false
set_option relaxedAutoImplicit false

namespace DelayChain

/-- Why settings are refused. -/
inductive ConfigError where
  | invalid (key value : String)
  | parameters (error : Delay.ParameterError)
  deriving DecidableEq

def ConfigError.message : ConfigError → String
  | .invalid key value => "invalid value " ++ Text.Quoted.encode value ++ " for " ++ key
  | .parameters error => error.message

structure Config where
  delay : Delay.Parameters
  input : DelayInput
  initialDifficulty : UInt32
  maxDifficulty : UInt32
  /-- The time that one block should take, in seconds. -/
  targetSeconds : Int
  window : Nat
  maxRequests : Nat
  /-- The number of blocks that a run produces. -/
  blocks : Nat
  deriving DecidableEq

namespace Config

/-- The value of a setting, or its usual value. -/
def setting {α : Type} (lookup : String → Option String) (read? : List Char → Option α)
    (key : String) (usual : α) : Except ConfigError α :=
  match lookup key with
  | none => .ok usual
  | some raw =>
    match read? (Text.Blank.trim raw.toList) with
    | some value => .ok value
    | none => .error (.invalid key raw)

/-- A word of 64 bits. -/
def word64? (cs : List Char) : Option Nat := Text.Numeral.unsigned? 0xffffffffffffffff cs

/-- A word of 32 bits. -/
def word32? (cs : List Char) : Option UInt32 :=
  (Text.Numeral.unsigned? 0xffffffff cs).map UInt32.ofNat

/-- A truth value. -/
def flag? (cs : List Char) : Option Bool :=
  match String.ofList cs with
  | "true" => some true
  | "false" => some false
  | _ => none

/-- A natural number of any size in decimal digits. -/
def natural? (cs : List Char) : Option Nat := Text.Numeral.natural? 10 (String.ofList cs)

/-- A positive word of 64 bits. -/
def positive64? (cs : List Char) : Option Nat := (word64? cs).filter (0 < ·)

/-- A positive number of seconds. -/
def seconds? (cs : List Char) : Option Int :=
  (Text.Numeral.signed? (-0x8000000000000000) 0x7fffffffffffffff cs).filter (0 < ·)

/-- The parameters of the delay function in the settings. -/
def readDelay (lookup : String → Option String) : Except ConfigError Delay.Parameters := do
  let modulus ← setting lookup natural? "VDF_MODULUS" Delay.rsa2048
  let time ← setting lookup word64? "VDF_TIME_PARAMETER" Delay.usualTime.toNat
  let security ← setting lookup word32? "VDF_SECURITY_PARAMETER" Delay.usualSecurity
  (Delay.Parameters.of modulus (UInt64.ofNat time) security).mapError .parameters

/-- The settings, or the first fault in them. -/
def read (lookup : String → Option String) : Except ConfigError Config := do
  let delay ← readDelay lookup
  let bindTime ← setting lookup flag? "VDF_BIND_TIMESTAMP" false
  let initialDifficulty ← setting lookup word32? "INITIAL_DIFFICULTY" 3
  let maxDifficulty ← setting lookup word32? "MAX_DIFFICULTY" Difficulty.Adjuster.usualCap
  let targetSeconds ←
    setting lookup seconds? "TARGET_BLOCK_TIME_SECS" Difficulty.Adjuster.usualSeconds
  let window ← setting lookup positive64? "DIFFICULTY_WINDOW" Difficulty.Adjuster.usualWindow
  let maxRequests ← setting lookup word64? "MAX_TXS_PER_BLOCK" 10
  let blocks ← setting lookup word64? "BLOCKS_TO_MINE" 3
  return {
    delay
    input := if bindTime then .workHashAndTime else .workHash
    initialDifficulty
    maxDifficulty
    targetSeconds
    window
    maxRequests
    blocks }

/-- The adjuster of the settings. -/
def adjuster (config : Config) : Difficulty.Adjuster :=
  .of config.window config.targetSeconds config.maxDifficulty

/-- A node of the settings, with a schedule of its own and SHA-256 as hasher. -/
def node (config : Config) (senders : Option Registry) : Node :=
  Node.start ⟨Hasher.sha256, config.delay, config.input, senders⟩ config.adjuster
    config.maxRequests (Schedule.constant config.initialDifficulty)

end Config

end DelayChain
