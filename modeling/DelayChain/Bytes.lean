/-!
# Byte sequences

Texts and natural numbers as bytes. Numbers are big-endian: the shortest form (zero is one zero
byte), a form padded to a width it never cuts, and a form of exactly a given width.
-/

set_option autoImplicit false
set_option relaxedAutoImplicit false

namespace DelayChain

/-- A finite sequence of bytes. -/
abbrev Bytes := List UInt8

namespace Bytes

/-- The UTF-8 form of a text. -/
def ofText (text : String) : Bytes := text.toUTF8.data.toList

/-- The number whose base-256 digits are the bytes, most significant first. -/
def toNat (bytes : Bytes) : Nat := bytes.foldl (fun value byte => 256 * value + byte.toNat) 0

/-- The shortest big-endian form; zero is one zero byte. -/
def ofNat (n : Nat) : Bytes :=
  if n < 256 then [UInt8.ofNat n] else ofNat (n / 256) ++ [UInt8.ofNat n]
termination_by n

/-- Zero bytes in front until the width is reached; a longer sequence is left whole. -/
def padLeft (width : Nat) (bytes : Bytes) : Bytes :=
  List.replicate (width - bytes.length) 0 ++ bytes

/-- The big-endian form of a number, padded to a width. -/
def padded (width n : Nat) : Bytes := padLeft width (ofNat n)

/-- The last base-256 digits of a number, exactly as many as asked for. -/
def word : (width : Nat) → (n : Nat) → Bytes
  | 0, _ => []
  | width + 1, n => word width (n / 256) ++ [UInt8.ofNat n]

@[simp] theorem length_word (width n : Nat) : (word width n).length = width := by
  induction width generalizing n with
  | zero => rfl
  | succ width ih => simp [word, ih]

end Bytes

end DelayChain
