import DelayChain.Text.Hex

/-!
# JSON values and their compact text

A value keeps the order of its members and every repetition. The compact text has no blanks, writes
members in their order, and escapes only quotes, backslashes and the characters below the space.
-/

set_option autoImplicit false
set_option relaxedAutoImplicit false

namespace DelayChain

/-- A JSON value. -/
inductive Json where
  | null
  | bool (value : Bool)
  /-- A number written without fraction and exponent, other than negative zero. -/
  | integer (value : Int)
  /-- Any other number, as it is written. -/
  | decimal (literal : String)
  | text (value : String)
  | array (items : List Json)
  | object (members : List (String × Json))
  /-- A text, or an object with a name, that holds an unpaired surrogate: it follows the grammar
  but stands for no value. -/
  | unpaired
  deriving Inhabited

namespace Json

/-- The written form of one character within quotes. -/
def escape (c : Char) : List Char :=
  if c = '"' then ['\\', '"']
  else if c = '\\' then ['\\', '\\']
  else if c = '\x08' then ['\\', 'b']
  else if c = '\x0c' then ['\\', 'f']
  else if c = '\n' then ['\\', 'n']
  else if c = '\r' then ['\\', 'r']
  else if c = '\t' then ['\\', 't']
  else if c.toNat < 32 then ['\\', 'u', '0', '0'] ++ Text.Hex.pair (UInt8.ofNat c.toNat)
  else [c]

/-- A text within quotes. -/
def quoted (s : String) : List Char := '"' :: (s.toList.flatMap escape ++ ['"'])

mutual

/-- The compact text of a value. -/
def chars : Json → List Char
  | .null => ['n', 'u', 'l', 'l']
  | .bool true => ['t', 'r', 'u', 'e']
  | .bool false => ['f', 'a', 'l', 's', 'e']
  | .integer n => (toString n).toList
  | .decimal literal => literal.toList
  | .text s => quoted s
  | .array [] => ['[', ']']
  | .array (item :: items) => '[' :: (chars item ++ itemChars items)
  | .object [] => ['\x7b', '\x7d']
  | .object ((name, value) :: members) =>
    '\x7b' :: (quoted name ++ ':' :: (chars value ++ memberChars members))
  | .unpaired => ['"', '\\', 'u', 'd', '8', '0', '0', '"']

/-- The items behind the first, each behind a comma, and the closing bracket. -/
def itemChars : List Json → List Char
  | [] => [']']
  | item :: items => ',' :: (chars item ++ itemChars items)

/-- The members behind the first, each behind a comma, and the closing brace. -/
def memberChars : List (String × Json) → List Char
  | [] => ['\x7d']
  | (name, value) :: members =>
    ',' :: (quoted name ++ ':' :: (chars value ++ memberChars members))

end

/-- The compact text of a value. -/
def render (value : Json) : String := String.ofList value.chars

end Json

end DelayChain
