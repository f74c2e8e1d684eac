import DelayChain.Text.Unprintable

/-!
# Quoted text

How a faulty value is shown in a message: in double quotes, with a backslash in front of quotes and
backslashes, short escapes for the usual control characters, and every other unprintable character
as its code point in braces.
-/

set_option autoImplicit false
set_option relaxedAutoImplicit false

namespace DelayChain.Text.Quoted

/-- The code point of a character, in hexadecimal within braces. -/
def codePoint (c : Char) : List Char :=
  ['\\', 'u', '\x7b'] ++ Nat.toDigits 16 c.toNat ++ ['\x7d']

/-- The written form of one character. -/
def escape (c : Char) : List Char :=
  if c = '"' then ['\\', '"']
  else if c = '\\' then ['\\', '\\']
  else if c = '\n' then ['\\', 'n']
  else if c = '\t' then ['\\', 't']
  else if c = '\r' then ['\\', 'r']
  else if c = '\x00' then ['\\', '0']
  else if Unprintable.isUnprintable c then codePoint c
  else [c]

/-- The text in double quotes. -/
def encode (text : String) : String :=
  String.ofList (['"'] ++ text.toList.flatMap escape ++ ['"'])

end DelayChain.Text.Quoted
