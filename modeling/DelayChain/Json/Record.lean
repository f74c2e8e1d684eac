import DelayChain.Json.Reader
import DelayChain.Text.Numeral

/-!
# Records in JSON

A record with named fields is an object or an array. In an object the fields stand in any order,
none of them twice, and members of other names are passed over; an array holds exactly one item for
each field in the order of the record. What a field may hold is decided by the readers of scalars,
each of which takes one form and refuses every other.
-/

set_option autoImplicit false
set_option relaxedAutoImplicit false

namespace DelayChain.Json

/-- What an object says about one name: nothing, or one value. Two values are refused. -/
def field? (members : List (String × Json)) (name : String) : Option (Option Json) :=
  match members.filter (·.1 == name) with
  | [] => some none
  | [member] => some (some member.2)
  | _ => none

/-- The fields of a record in the order of their names. -/
def fields? (names : List String) : Json → Option (List (Option Json))
  | .object members => names.mapM (field? members)
  | .array items => if items.length = names.length then some (items.map some) else none
  | _ => none

/-- The integer, if it lies within the limits. -/
def intWithin? (least greatest : Int) : Json → Option Int
  | .integer n => if least ≤ n ∧ n ≤ greatest then some n else none
  | _ => none

/-- An unsigned integer of 32 bits. -/
def uint32? (value : Json) : Option UInt32 :=
  (value.intWithin? 0 0xffffffff).map fun n => UInt32.ofNat n.toNat

/-- An unsigned integer of 64 bits. -/
def uint64? (value : Json) : Option UInt64 :=
  (value.intWithin? 0 0xffffffffffffffff).map fun n => UInt64.ofNat n.toNat

/-- A signed integer of 64 bits. -/
def int64? (value : Json) : Option Int64 :=
  (value.intWithin? (-0x8000000000000000) 0x7fffffffffffffff).map Int64.ofInt

/-- A truth value. -/
def bool? : Json → Option Bool
  | .bool b => some b
  | _ => none

/-- A text. -/
def string? : Json → Option String
  | .text s => some s
  | _ => none

/-- A natural number of any size, written as a hexadecimal text. -/
def hexNatural? (value : Json) : Option Nat := value.string?.bind (Text.Numeral.natural? 16)

/-- The items of an array, each read in the same way. -/
def listOf? {α : Type} (item? : Json → Option α) : Json → Option (List α)
  | .array items => items.mapM item?
  | _ => none

/-- A field that may be missing or null. -/
def optional? {α : Type} (value? : Json → Option α) : Option Json → Option (Option α)
  | none => some none
  | some .null => some none
  | some value => (value? value).map some

/-- An unsigned integer as a value. -/
def ofNat (n : Nat) : Json := .integer n

/-- A natural number of any size as a hexadecimal text. -/
def ofHexNatural (n : Nat) : Json := .text (Text.Numeral.hex n)

/-- A value that may be missing; null stands for it. -/
def ofOption {α : Type} (value : α → Json) : Option α → Json
  | none => .null
  | some a => value a

end DelayChain.Json
