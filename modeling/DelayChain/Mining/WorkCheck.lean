import DelayChain.Block.Basic

/-!
# Checking proof of work

The work hash of a block has to be that of its contents, its difficulty at least the required one,
and the hash has to meet the block's own difficulty.
-/

set_option autoImplicit false
set_option relaxedAutoImplicit false

namespace DelayChain

/-- Why a proof of work is refused. -/
inductive WorkRejection where
  | missing
  | mismatch (stored computed : String)
  | belowSchedule (recorded required : UInt32)
  | targetNotMet (difficulty : UInt32)
  deriving DecidableEq

def WorkRejection.message : WorkRejection → String
  | .missing => "block carries no proof-of-work hash"
  | .mismatch stored computed => s!"stored pow hash {stored} does not match recomputed {computed}"
  | .belowSchedule recorded required =>
    s!"recorded difficulty {recorded} is below the required {required}"
  | .targetNotMet difficulty => s!"hash does not have {difficulty} leading zeros"

/-- Accepts the proof of work of a block or names its first fault. -/
def Block.checkWork (block : Block) (hasher : Hasher) (required : UInt32) :
    Except WorkRejection Unit :=
  match block.workHash with
  | none => .error .missing
  | some stored =>
    let computed := block.computeWorkHash hasher
    if stored ≠ computed then .error (.mismatch stored computed)
    else if block.difficulty < required then .error (.belowSchedule block.difficulty required)
    else if ¬Hasher.Meets computed block.difficulty then .error (.targetNotMet block.difficulty)
    else .ok ()

end DelayChain
