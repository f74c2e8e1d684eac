/-!
# Parameters of the delay function

An odd modulus above one, the number of sequential squarings, and the bit length of the challenges.
The conditions belong to the type; `Parameters.of` names the first one that fails.
-/

set_option autoImplicit false
set_option relaxedAutoImplicit false

namespace DelayChain.Delay

/-- Why a choice of parameters is refused. -/
inductive ParameterError where
  | modulusTooSmall
  | evenModulus
  | zeroTime
  | security (bits : UInt32)
  deriving DecidableEq

def ParameterError.message : ParameterError → String
  | .modulusTooSmall => "modulus must be greater than 1"
  | .evenModulus => "modulus must be odd"
  | .zeroTime => "time parameter must be at least 1"
  | .security bits => s!"security parameter must be within 1..=256 bits, got {bits}"

structure Parameters where
  modulus : Nat
  /-- The number of sequential squarings. -/
  time : UInt64
  /-- The bit length of a challenge. -/
  security : UInt32
  one_lt_modulus : 1 < modulus
  modulus_odd : modulus % 2 = 1
  time_pos : 0 < time.toNat
  security_pos : 0 < security.toNat
  security_le : security.toNat ≤ 256
  deriving DecidableEq

namespace Parameters

/-- The parameters, or the first condition they break. -/
def of (modulus : Nat) (time : UInt64) (security : UInt32) : Except ParameterError Parameters :=
  if one_lt : modulus ≤ 1 then .error .modulusTooSmall
  else if odd : modulus % 2 = 0 then .error .evenModulus
  else if time_pos : time.toNat = 0 then .error .zeroTime
  else if security_range : security.toNat = 0 ∨ 256 < security.toNat then
    .error (.security security)
  else .ok
    { modulus, time, security
      one_lt_modulus := by omega
      modulus_odd := by omega
      time_pos := by omega
      security_pos := by omega
      security_le := by omega }

def bits (P : Parameters) : Nat := P.modulus.log2 + 1

/-- The number of bytes that hold any residue. -/
def width (P : Parameters) : Nat := (P.bits + 7) / 8

def summary (P : Parameters) : String :=
  "VdfParameters\x7bmodulus=" ++ toString P.bits ++ " bits, T=" ++ toString P.time ++
    ", lambda=" ++ toString P.security ++ "\x7d"

end Parameters

/-- The RSA-2048 challenge number, whose factors nobody is known to hold. -/
def rsa2048 : Nat :=
  [0xc7970ceedcc3b075, 0x4490201a7aa613cd, 0x73911081c790f5f1, 0xa8726f463550bb5b,
   0x7ff0db8e1ea1189e, 0xc72f93d1650011bd, 0x721aeeacc2acde32, 0xa04107f0648c2813,
   0xa31f5b0b7765ff8b, 0x44b4b6ffc93384b6, 0x46eb09c7cf5e8592, 0xd40ea33c80039f35,
   0xb4f14a04b51f7bfd, 0x781be4d1673164ba, 0x8eb991c2c4d730bb, 0xbe35f592bdef524a,
   0xf7e8daefd26c66fc, 0x02c479af89d64d37, 0x3f442709439de66c, 0xeb955f3ea37d5159,
   0xf6135809f85334b5, 0xcb1813addc80cd05, 0x609f10ac6a95ad65, 0x872c909525bdad32,
   0xbc729592642920f2, 0x4c61dc5b3c3b7923, 0xe56b16a4d9d373d8, 0x721f24a3fc0f1b31,
   0x31f55615172866bc, 0xcc30f95054c824e7, 0x33a5eb6817f7bc16, 0x399d48c6361cc7e5].foldl
    (fun n word => (n <<< 64) + word) 0

/-- Parameters for rehearsals: the modulus is the product of the Mersenne primes with 61 and 89 bits. -/
def Parameters.rehearsal (time : UInt64) (time_pos : 0 < time.toNat := by decide) : Parameters where
  modulus := 0x1fffffffffffffff * 0x1ffffffffffffffffffffff
  time
  security := 128
  one_lt_modulus := by decide
  modulus_odd := by decide
  time_pos
  security_pos := by decide
  security_le := by decide

def usualTime : UInt64 := 1000000

def usualSecurity : UInt32 := 128

end DelayChain.Delay
