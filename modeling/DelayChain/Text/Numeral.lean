import DelayChain.Text.Hex

/-!
# Numerals

How whole numbers are read from text. A word numeral is a sign and decimal digits within the range
of its type. A natural numeral of any size also takes underscores between its digits.
-/

set_option autoImplicit false
set_option relaxedAutoImplicit false

namespace DelayChain.Text.Numeral

/-- The value of a digit below a base of at most sixteen. -/
def digitValue? (base : Nat) (c : Char) : Option Nat :=
  (Hex.digitValue? c).filter (· < base)

/-- Reads digits onto the value read so far. -/
def digits? (base : Nat) : (value : Nat) → List Char → Option Nat
  | value, [] => some value
  | value, c :: rest => (digitValue? base c).bind fun d => digits? base (base * value + d) rest

/-- A nonempty run of decimal digits. -/
def decimal? : List Char → Option Nat
  | [] => none
  | cs@(_ :: _) => digits? 10 0 cs

/-- A natural number at most `limit`: decimal digits behind at most one plus sign. -/
def unsigned? (limit : Nat) (cs : List Char) : Option Nat :=
  let body := match cs with
    | '+' :: rest => rest
    | cs => cs
  (decimal? body).filter (· ≤ limit)

/-- An integer within the given limits: decimal digits behind at most one sign. -/
def signed? (least greatest : Int) (cs : List Char) : Option Int :=
  let value := match cs with
    | '-' :: rest => (decimal? rest).map fun n => -(n : Int)
    | '+' :: rest => (decimal? rest).map Int.ofNat
    | cs => (decimal? cs).map Int.ofNat
  value.filter fun n => least ≤ n ∧ n ≤ greatest

/-- Reads digits onto the value read so far and skips underscores. -/
def grouped? (base : Nat) : (value : Nat) → List Char → Option Nat
  | value, [] => some value
  | value, '_' :: rest => grouped? base value rest
  | value, c :: rest => (digitValue? base c).bind fun d => grouped? base (base * value + d) rest

/-- A natural number of any size: at most one plus sign, then digits and underscores, of which the
first is no underscore. -/
def natural? (base : Nat) (text : String) : Option Nat :=
  let body := match text.toList with
    | '+' :: rest => rest
    | cs => cs
  match body with
  | [] => none
  | '_' :: _ => none
  | cs => grouped? base 0 cs

/-- The lower-case hexadecimal digits of a natural number, without leading zeros. -/
def hex (n : Nat) : String := String.ofList (Nat.toDigits 16 n)

end DelayChain.Text.Numeral
