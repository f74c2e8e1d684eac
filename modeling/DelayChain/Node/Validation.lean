import DelayChain.Mining.WorkCheck
import DelayChain.Node.Finalization

/-!
# Validation

A block is checked in the order of rising cost: its proof of work against the schedule, its own
hash, its requests where senders are registered, and last its delay proof.
-/

set_option autoImplicit false
set_option relaxedAutoImplicit false

namespace DelayChain

/-- Why a block is refused. -/
inductive Rejection where
  | work (reason : WorkRejection)
  | delay (reason : DelayRejection)
  | hashMismatch (stored computed : String)
  | wrongHeight (tip found : UInt64)
  | wrongParent
  | request (invalid : InvalidRequest)
  deriving DecidableEq

def Rejection.message : Rejection → String
  | .work reason => "proof-of-work rejected: " ++ reason.message
  | .delay reason => "sequential-work proof rejected: " ++ reason.message
  | .hashMismatch stored computed =>
    s!"block hash {stored} does not match its contents ({computed})"
  | .wrongHeight tip found => s!"block height {found} does not extend height {tip}"
  | .wrongParent => "block does not link to the previous block"
  | .request invalid => invalid.message

/-- What every node of a chain agrees on, and the senders that this one knows. -/
structure Rules where
  hasher : Hasher
  delay : Delay.Parameters
  input : DelayInput
  /-- The registered senders; without them requests are not checked. -/
  senders : Option Registry

namespace Rules

/-- Checks the requests of a block where senders are registered. -/
def checkRequests (rules : Rules) (block : Block) : Except InvalidRequest Unit :=
  match rules.senders with
  | none => .ok ()
  | some keys => Block.checkRequests keys block.requests

/-- Accepts a block by itself or names its first fault. -/
def check (rules : Rules) (schedule : Schedule) (block : Block) : Except Rejection Unit :=
  match block.checkWork rules.hasher (schedule.difficultyAt block.height) with
  | .error reason => .error (.work reason)
  | .ok () =>
    if block.hash ≠ block.computeHash rules.hasher then
      .error (.hashMismatch block.hash (block.computeHash rules.hasher))
    else
      match rules.checkRequests block with
      | .error invalid => .error (.request invalid)
      | .ok () =>
        match block.checkDelay rules.delay rules.input with
        | .error reason => .error (.delay reason)
        | .ok () => .ok ()

end Rules

/-- The block stands directly on top of a parent. -/
def Block.checkExtends (block parent : Block) : Except Rejection Unit :=
  if block.height ≠ parent.height + 1 then .error (.wrongHeight parent.height block.height)
  else if block.parent ≠ some parent.hash then .error .wrongParent
  else .ok ()

/-- Accepts a block on top of a parent or names its first fault. -/
def Rules.checkOn (rules : Rules) (schedule : Schedule) (parent block : Block) :
    Except Rejection Unit :=
  match block.checkExtends parent with
  | .error reason => .error reason
  | .ok () => rules.check schedule block

end DelayChain
