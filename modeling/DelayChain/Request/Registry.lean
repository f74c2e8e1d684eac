import DelayChain.Request.Basic
import DelayChain.Signature.Ecdsa

/-!
# Registered senders

The public keys of known senders, one for each, and the check of a request against them.
-/

set_option autoImplicit false
set_option relaxedAutoImplicit false

namespace DelayChain

/-- Why a request is not taken from its sender. -/
inductive RequestError where
  | malformed
  | unknownSender
  | form (error : Signature.Ecdsa.FormError)
  | incorrectSignature
  deriving DecidableEq

def RequestError.message : RequestError → String
  | .malformed => "malformed request"
  | .unknownSender => "unknown sender"
  | .form error => error.message
  | .incorrectSignature => "incorrect signature"

/-- Senders with their keys in hexadecimal, no sender twice. -/
structure Registry where
  entries : List (UInt32 × String)
  deriving DecidableEq

namespace Registry

def empty : Registry := ⟨[]⟩

/-- Registers a key, in place of the sender's former one. -/
def insert (registry : Registry) (sender : UInt32) (key : String) : Registry :=
  ⟨(sender, key) :: registry.entries.filter (·.1 != sender)⟩

/-- The registry of a list of entries, later ones in place of earlier ones. -/
def ofList (entries : List (UInt32 × String)) : Registry :=
  entries.foldl (fun registry entry => registry.insert entry.1 entry.2) empty

/-- The key of a sender. -/
def get? (registry : Registry) (sender : UInt32) : Option String :=
  (registry.entries.find? (·.1 == sender)).map (·.2)

def size (registry : Registry) : Nat := registry.entries.length

/-- Checks a request: well-formed, from a known sender, with that sender's signature. -/
def check (registry : Registry) (request : Request) : Except RequestError Unit :=
  if ¬request.IsWellFormed then .error .malformed
  else
    match registry.get? request.sender with
    | none => .error .unknownSender
    | some key =>
      match Signature.Ecdsa.check key request.signature request.signingDigest with
      | .error error => .error (.form error)
      | .ok true => .ok ()
      | .ok false => .error .incorrectSignature

end Registry

end DelayChain
