import DelayChain.Bytes

/-!
# Hexadecimal text

A byte is written as two lower-case digits, high half first. Reading takes digits of either case
and refuses a lone digit and every other character, so reading undoes writing.
-/

set_option autoImplicit false
set_option relaxedAutoImplicit false

namespace DelayChain.Text.Hex

/-- The value of a hexadecimal digit of either case. -/
def digitValue? (c : Char) : Option Nat :=
  if '0' ≤ c ∧ c ≤ '9' then some (c.toNat - 48)
  else if 'a' ≤ c ∧ c ≤ 'f' then some (c.toNat - 87)
  else if 'A' ≤ c ∧ c ≤ 'F' then some (c.toNat - 55)
  else none

/-- The two digits of a byte. -/
def pair (byte : UInt8) : List Char :=
  [Nat.digitChar (byte.toNat / 16), Nat.digitChar (byte.toNat % 16)]

/-- The digits of a byte sequence. -/
def digits (bytes : Bytes) : List Char := bytes.flatMap pair

/-- The hexadecimal text of a byte sequence. -/
def encode (bytes : Bytes) : String := String.ofList (digits bytes)

/-- The bytes that a sequence of digits stands for. -/
def bytes? : List Char → Option Bytes
  | [] => some []
  | [_] => none
  | high :: low :: rest =>
    match digitValue? high, digitValue? low, bytes? rest with
    | some h, some l, some bytes => some (UInt8.ofNat (16 * h + l) :: bytes)
    | _, _, _ => none

/-- The bytes that a hexadecimal text stands for. -/
def decode? (text : String) : Option Bytes := bytes? text.toList

private theorem digitValue_digitChar : ∀ n, n < 16 → digitValue? (Nat.digitChar n) = some n := by
  decide

theorem bytes_digits (bytes : Bytes) : bytes? (digits bytes) = some bytes := by
  induction bytes with
  | nil => rfl
  | cons byte rest ih =>
    have h : byte.toNat < 256 := byte.toNat_lt
    have high := digitValue_digitChar (byte.toNat / 16) (by omega)
    have low := digitValue_digitChar (byte.toNat % 16) (by omega)
    have whole : 16 * (byte.toNat / 16) + byte.toNat % 16 = byte.toNat := by omega
    simp only [digits] at ih
    simp [digits, pair, bytes?, high, low, whole, ih]

theorem decode_encode (bytes : Bytes) : decode? (encode bytes) = some bytes := by
  simp [decode?, encode, bytes_digits]

theorem length_digits (bytes : Bytes) : (digits bytes).length = 2 * bytes.length := by
  induction bytes with
  | nil => rfl
  | cons byte rest ih =>
    have unfolded : digits (byte :: rest) = pair byte ++ digits rest := rfl
    rw [unfolded, List.length_append, ih]
    simp only [pair, List.length_cons, List.length_nil]
    omega

end DelayChain.Text.Hex
