import DelayChain.Json.Value

/-!
# Reading JSON text

The strict grammar: one value with blanks around it and nothing behind it, no comma in front of a
closing bracket, no leading zero, no raw character below the space in a text. A text whose escapes
leave a surrogate unpaired is read as `Json.unpaired`, so that it can be passed over but not used.
-/

set_option autoImplicit false
set_option relaxedAutoImplicit false

namespace DelayChain.Json

/-- The four characters that may stand between tokens. -/
def isGap (c : Char) : Bool := c == ' ' || c == '\n' || c == '\t' || c == '\r'

/-- The input behind its leading blanks. -/
def skipGap (cs : List Char) : List Char := cs.dropWhile isGap

/-- A part of a quoted text: a character, or one half of a surrogate pair by its ten bits. -/
inductive Piece where
  | char (c : Char)
  | high (bits : Nat)
  | low (bits : Nat)
  deriving DecidableEq

/-- The part that a code unit stands for. -/
def Piece.ofUnit (n : Nat) : Piece :=
  if 0xd800 ≤ n ∧ n < 0xdc00 then .high (n - 0xd800)
  else if 0xdc00 ≤ n ∧ n < 0xe000 then .low (n - 0xdc00)
  else .char (Char.ofNat n)

/-- The characters of the parts; none if a surrogate is unpaired. -/
def Piece.join : (seen : List Char) → List Piece → Option (List Char)
  | seen, [] => some seen.reverse
  | seen, .char c :: rest => join (c :: seen) rest
  | seen, .high h :: .low l :: rest => join (Char.ofNat (0x10000 + 0x400 * h + l) :: seen) rest
  | _, _ => none

/-- The character that a one-letter escape stands for. -/
def shortEscape? : Char → Option Char
  | '"' => some '"'
  | '\\' => some '\\'
  | '/' => some '/'
  | 'b' => some '\x08'
  | 'f' => some '\x0c'
  | 'n' => some '\n'
  | 'r' => some '\r'
  | 't' => some '\t'
  | _ => none

/-- The code unit of four hexadecimal digits. -/
def unit? (a b c d : Char) : Option Nat :=
  match Text.Hex.digitValue? a, Text.Hex.digitValue? b, Text.Hex.digitValue? c,
      Text.Hex.digitValue? d with
  | some a, some b, some c, some d => some (0x1000 * a + 0x100 * b + 0x10 * c + d)
  | _, _, _, _ => none

/-- Reads the inside of a quoted text up to its closing quote. -/
def pieces? : (seen : List Piece) → List Char → Option (List Piece × List Char)
  | seen, '"' :: rest => some (seen.reverse, rest)
  | seen, '\\' :: 'u' :: a :: b :: c :: d :: rest =>
    match unit? a b c d with
    | some n => pieces? (.ofUnit n :: seen) rest
    | none => none
  | seen, '\\' :: c :: rest =>
    match shortEscape? c with
    | some c => pieces? (.char c :: seen) rest
    | none => none
  | seen, c :: rest => if c.toNat < 32 then none else pieces? (.char c :: seen) rest
  | _, [] => none

/-- Reads a text behind its opening quote: the text, unless a surrogate in it is unpaired. -/
def text? (cs : List Char) : Option (Option String × List Char) :=
  (pieces? [] cs).map fun p => ((Piece.join [] p.1).map String.ofList, p.2)

/-- Splits off the leading decimal digits. -/
def splitDigits (cs : List Char) : List Char × List Char :=
  (cs.takeWhile Char.isDigit, cs.dropWhile Char.isDigit)

/-- Reads a fraction, if there is one: its text and the rest. -/
def fraction? (cs : List Char) : Option (List Char × List Char) :=
  match cs with
  | '.' :: rest =>
    match splitDigits rest with
    | ([], _) => none
    | (digits, rest) => some ('.' :: digits, rest)
  | _ => some ([], cs)

/-- Reads an exponent, if there is one: its text and the rest. -/
def exponent? (cs : List Char) : Option (List Char × List Char) :=
  match cs with
  | e :: rest =>
    if e = 'e' ∨ e = 'E' then
      let (sign, rest) := match rest with
        | '+' :: rest => (['+'], rest)
        | '-' :: rest => (['-'], rest)
        | _ => ([], rest)
      match splitDigits rest with
      | ([], _) => none
      | (digits, rest) => some (e :: (sign ++ digits), rest)
    else some ([], cs)
  | [] => some ([], [])

/-- The number that decimal digits stand for. -/
def digitsValue (digits : List Char) : Nat :=
  digits.foldl (fun n c => 10 * n + (c.toNat - 48)) 0

/-- The value of a number literal in its parts. -/
def ofLiteral (negative : Bool) (whole tail : List Char) : Json :=
  let n := digitsValue whole
  if tail = [] ∧ ¬(negative ∧ n = 0) then .integer (if negative then -(n : Int) else n)
  else .decimal (String.ofList ((if negative then ['-'] else []) ++ whole ++ tail))

/-- Reads a number. -/
def number? (cs : List Char) : Option (Json × List Char) :=
  let (negative, body) := match cs with
    | '-' :: rest => (true, rest)
    | _ => (false, cs)
  let (whole, rest) := splitDigits body
  match whole with
  | [] => none
  | '0' :: _ :: _ => none
  | _ => do
    let (fraction, rest) ← fraction? rest
    let (exponent, rest) ← exponent? rest
    some (ofLiteral negative whole (fraction ++ exponent), rest)

mutual

/-- Reads one value behind blanks; the fuel bounds the number of tokens. -/
def value? : (fuel : Nat) → List Char → Option (Json × List Char)
  | 0, _ => none
  | fuel + 1, cs =>
    match skipGap cs with
    | 'n' :: 'u' :: 'l' :: 'l' :: rest => some (.null, rest)
    | 't' :: 'r' :: 'u' :: 'e' :: rest => some (.bool true, rest)
    | 'f' :: 'a' :: 'l' :: 's' :: 'e' :: rest => some (.bool false, rest)
    | '"' :: rest => (text? rest).map fun p => (p.1.elim .unpaired .text, p.2)
    | '[' :: rest =>
      match skipGap rest with
      | ']' :: rest => some (.array [], rest)
      | rest => items? fuel [] rest
    | '\x7b' :: rest =>
      match skipGap rest with
      | '\x7d' :: rest => some (.object [], rest)
      | rest => members? fuel true [] rest
    | rest => number? rest

/-- Reads the items of an array from the next one on. -/
def items? : (fuel : Nat) → (seen : List Json) → List Char → Option (Json × List Char)
  | 0, _, _ => none
  | fuel + 1, seen, cs =>
    match value? fuel cs with
    | none => none
    | some (item, rest) =>
      match skipGap rest with
      | ',' :: rest => items? fuel (item :: seen) rest
      | ']' :: rest => some (.array (item :: seen).reverse, rest)
      | _ => none

/-- Reads the members of an object from the next one on; `paired` tells whether every name so far
is a text. -/
def members? : (fuel : Nat) → (paired : Bool) → (seen : List (String × Json)) → List Char →
    Option (Json × List Char)
  | 0, _, _, _ => none
  | fuel + 1, paired, seen, cs =>
    match skipGap cs with
    | '"' :: rest =>
      match text? rest with
      | none => none
      | some (name, rest) =>
        match skipGap rest with
        | ':' :: rest =>
          match value? fuel rest with
          | none => none
          | some (value, rest) =>
            let paired := paired && name.isSome
            let seen := (name.getD "", value) :: seen
            match skipGap rest with
            | ',' :: rest => members? fuel paired seen rest
            | '\x7d' :: rest => some (if paired then .object seen.reverse else .unpaired, rest)
            | _ => none
        | _ => none
    | _ => none

end

/-- The value of a JSON text. -/
def read? (source : String) : Option Json :=
  let cs := source.toList
  match value? (cs.length + 1) cs with
  | some (value, rest) => if skipGap rest = [] then some value else none
  | none => none

end DelayChain.Json
