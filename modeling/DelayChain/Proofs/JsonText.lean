import DelayChain.Json.Reader
import DelayChain.Proofs.Text

/-!
# Reading what was written

The reader takes the compact text of a value off the front of its input and gives the value back,
whatever stands behind the text. Only behind an integer it matters: a digit, a point or an exponent would
go on with the number. In arrays and objects a comma or a bracket stands there.
-/

set_option autoImplicit false
set_option relaxedAutoImplicit false

namespace DelayChain.Json

variable {fuel : Nat} {cs rest : List Char} {value : Json}

private theorem Piece.join_chars (seen cs : List Char) :
    join seen (cs.map .char) = some (seen.reverse ++ cs) := by
  induction cs generalizing seen with
  | nil => rw [List.map_nil, join, List.append_nil]
  | cons c rest ih => rw [List.map_cons, join, ih, List.reverse_cons, List.append_assoc]; rfl

private theorem unit_control : ∀ n < 32,
    unit? '0' '0' (Nat.digitChar (n / 16)) (Nat.digitChar (n % 16)) = some n ∧
      Piece.ofUnit n = .char (Char.ofNat n) := by
  decide

private theorem pieces_control {c : Char} (control : c.toNat < 32) (seen : List Piece)
    (rest : List Char) :
    pieces? seen
        ('\\' :: 'u' :: '0' :: '0' :: (Text.Hex.pair (UInt8.ofNat c.toNat) ++ rest)) =
      pieces? (.char c :: seen) rest := by
  have byte : (UInt8.ofNat c.toNat).toNat = c.toNat := by
    rw [UInt8.toNat_ofNat']
    omega
  obtain ⟨unit, piece⟩ := unit_control c.toNat control
  rw [Char.ofNat_toNat] at piece
  simp only [Text.Hex.pair, byte, List.cons_append, List.nil_append, pieces?, unit, piece]

private theorem pieces_plain {c : Char} (quote : c ≠ '"') (backslash : c ≠ '\\')
    (printable : ¬c.toNat < 32) (seen : List Piece) (rest : List Char) :
    pieces? seen (c :: rest) = pieces? (.char c :: seen) rest := by
  rw [pieces?, if_neg printable]
  · exact quote
  · intro a b e d tail same
    exact absurd same backslash
  · intro e tail same
    exact absurd same backslash

private theorem pieces_escape (seen : List Piece) (c : Char) (rest : List Char) :
    pieces? seen (escape c ++ rest) = pieces? (.char c :: seen) rest := by
  by_cases short : c ∈ ['"', '\\', '\x08', '\x0c', '\n', '\r', '\t']
  · simp only [List.mem_cons, List.not_mem_nil, or_false] at short
    rcases short with rfl | rfl | rfl | rfl | rfl | rfl | rfl <;> rfl
  · simp only [List.mem_cons, List.not_mem_nil, or_false, not_or] at short
    simp only [escape, short, if_false]
    split
    · next control => exact pieces_control control seen rest
    · next printable => exact pieces_plain short.1 short.2.1 printable seen rest

private theorem pieces_escapes (seen : List Piece) (cs rest : List Char) :
    pieces? seen (cs.flatMap escape ++ '"' :: rest) = some (seen.reverse ++ cs.map .char, rest) := by
  induction cs generalizing seen with
  | nil => rw [List.map_nil, List.append_nil]; rfl
  | cons c tail ih =>
    rw [List.flatMap_cons, List.append_assoc, pieces_escape, ih, List.reverse_cons, List.append_assoc]
    rfl

private theorem text_escapes (s : String) (rest : List Char) :
    text? (s.toList.flatMap escape ++ '"' :: rest) = some (some s, rest) := by
  rw [text?, pieces_escapes, Option.map_some, List.reverse_nil, List.nil_append, Piece.join_chars]
  simp

private theorem digitsValue_toDigits (n : Nat) : digitsValue (Nat.toDigits 10 n) = n := by
  have digit : ∀ d < 10, (Nat.digitChar d).toNat - 48 = d := by decide
  induction n using Nat.strongRecOn with
  | ind n ih =>
    rw [Nat.toDigits_eq_if (by decide)]
    split
    · next below =>
      rw [digitsValue, List.foldl_cons, List.foldl_nil, digit n below]
      omega
    · next reaches =>
      have front := ih (n / 10) (by omega)
      rw [digitsValue] at front
      rw [digitsValue, List.foldl_append, front, List.foldl_cons, List.foldl_nil,
        digit (n % 10) (by omega)]
      omega

private theorem exists_toDigits_of_pos {n : Nat} (positive : 0 < n) :
    ∃ c tail, Nat.toDigits 10 n = c :: tail ∧ c ≠ '0' := by
  have digit : ∀ d < 10, 0 < d → Nat.digitChar d ≠ '0' := by decide
  induction n using Nat.strongRecOn with
  | ind n ih =>
    rw [Nat.toDigits_eq_if (by decide)]
    split
    · next below => exact ⟨_, [], rfl, digit n below positive⟩
    · next reaches =>
      obtain ⟨c, tail, front, nonzero⟩ := ih (n / 10) (by omega) (by omega)
      rw [front]
      exact ⟨c, _, rfl, nonzero⟩

/-- A number that stands in front ends here. -/
def Ends (rest : List Char) : Prop :=
  ∀ c, rest.head? = some c → c.isDigit = false ∧ c ≠ '.' ∧ c ≠ 'e' ∧ c ≠ 'E'

private theorem splitDigits_append {digits : List Char} (all : ∀ c ∈ digits, c.isDigit = true)
    (ends : Ends rest) : splitDigits (digits ++ rest) = (digits, rest) := by
  have behind : rest.takeWhile Char.isDigit = [] ∧ rest.dropWhile Char.isDigit = rest := by
    cases rest with
    | nil => exact ⟨rfl, rfl⟩
    | cons c tail =>
      obtain ⟨other, -⟩ := ends c rfl
      simp [other]
  rw [splitDigits, List.takeWhile_append_of_pos all, List.dropWhile_append_of_pos all, behind.1,
    behind.2, List.append_nil]

private theorem fraction_of_ends (ends : Ends rest) : fraction? rest = some ([], rest) := by
  unfold fraction?
  split
  · exact absurd rfl (ends '.' rfl).2.1
  · rfl

private theorem exponent_of_ends (ends : Ends rest) : exponent? rest = some ([], rest) := by
  cases rest with
  | nil => rfl
  | cons c tail =>
    obtain ⟨-, -, small, large⟩ := ends c rfl
    unfold exponent?
    dsimp only
    rw [if_neg (not_or.mpr ⟨small, large⟩)]

/-- A run of digits without a leading zero. -/
structure Whole (digits : List Char) : Prop where
  filled : digits ≠ []
  all : ∀ c ∈ digits, c.isDigit = true
  lead : ∀ c tail, digits = '0' :: c :: tail → False

private theorem whole_toDigits (n : Nat) : Whole (Nat.toDigits 10 n) where
  filled := Nat.toDigits_ne_nil
  all _ member := Nat.isDigit_of_mem_toDigits (by decide) (by decide) member
  lead c tail same := by
    by_cases zero : n = 0
    · rw [zero] at same
      exact nomatch same
    · obtain ⟨first, behind, front, nonzero⟩ := exists_toDigits_of_pos (Nat.pos_of_ne_zero zero)
      rw [front] at same
      exact nonzero (List.cons.inj same).1

/-- Reads a number behind its sign. -/
def magnitude? (negative : Bool) (body : List Char) : Option (Json × List Char) :=
  let (whole, rest) := splitDigits body
  match whole with
  | [] => none
  | '0' :: _ :: _ => none
  | _ => do
    let (fraction, rest) ← fraction? rest
    let (exponent, rest) ← exponent? rest
    some (ofLiteral negative whole (fraction ++ exponent), rest)

private theorem number_minus (body : List Char) : number? ('-' :: body) = magnitude? true body := rfl

private theorem number_of_ne {c : Char} (unsigned : c ≠ '-') (tail : List Char) :
    number? (c :: tail) = magnitude? false (c :: tail) := by
  unfold number?
  split
  next negative body sign =>
    split at sign
    · next same => exact absurd (List.cons.inj same).1 unsigned
    · cases sign
      rfl

private theorem magnitude_of_whole {digits : List Char} (whole : Whole digits) (negative : Bool)
    (ends : Ends rest) :
    magnitude? negative (digits ++ rest) = some (ofLiteral negative digits [], rest) := by
  rw [magnitude?, splitDigits_append whole.all ends]
  dsimp only
  split
  · exact absurd rfl whole.filled
  · exact (whole.lead _ _ rfl).elim
  · rw [fraction_of_ends ends]
    dsimp only [bind, Option.bind]
    rw [exponent_of_ends ends]
    rfl

private theorem number_toString (n : Int) (ends : Ends rest) :
    number? ((toString n).toList ++ rest) = some (.integer n, rest) := by
  cases n with
  | ofNat m =>
    have digits : (toString (Int.ofNat m)).toList = Nat.toDigits 10 m := Text.Numeral.toList_toString m
    have whole := whole_toDigits m
    obtain ⟨c, tail, front⟩ := List.exists_cons_of_ne_nil whole.filled
    have unsigned : c ≠ '-' := by
      rintro rfl
      exact absurd (whole.all '-' (front ▸ List.mem_cons_self)) (by decide)
    rw [digits, front, List.cons_append, number_of_ne unsigned, ← List.cons_append, ← front,
      magnitude_of_whole whole false ends]
    simp [ofLiteral, digitsValue_toDigits]
  | negSucc m =>
    rw [Text.Numeral.toList_toString_negSucc, List.cons_append, number_minus,
      magnitude_of_whole (whole_toDigits (m + 1)) true ends]
    simp [ofLiteral, digitsValue_toDigits, Int.negSucc_eq]

private theorem skipGap_of_solid {c : Char} (solid : isGap c = false) (tail : List Char) :
    skipGap (c :: tail) = c :: tail := by
  rw [skipGap, List.dropWhile_cons, solid, if_neg Bool.false_ne_true]

private theorem value_of_number {c : Char} (solid : isGap c = false)
    (other : c ∉ ['n', 't', 'f', '"', '[', '\x7b']) (fuel : Nat) (tail : List Char) :
    value? (fuel + 1) (c :: tail) = number? (c :: tail) := by
  rw [value?, skipGap_of_solid solid]
  split
  · next same => exact absurd (by rw [(List.cons.inj same).1]; decide) other
  · next same => exact absurd (by rw [(List.cons.inj same).1]; decide) other
  · next same => exact absurd (by rw [(List.cons.inj same).1]; decide) other
  · next same => exact absurd (by rw [(List.cons.inj same).1]; decide) other
  · next same => exact absurd (by rw [(List.cons.inj same).1]; decide) other
  · next same => exact absurd (by rw [(List.cons.inj same).1]; decide) other
  · rfl

mutual

/-- The value is written as what it stands for: it holds no literal and no unpaired surrogate. -/
def Plain : Json → Prop
  | .null | .bool _ | .integer _ | .text _ => True
  | .decimal _ | .unpaired => False
  | .array items => PlainItems items
  | .object members => PlainMembers members

def PlainItems : List Json → Prop
  | [] => True
  | item :: items => item.Plain ∧ PlainItems items

def PlainMembers : List (String × Json) → Prop
  | [] => True
  | (_, value) :: members => value.Plain ∧ PlainMembers members

end

private theorem exists_head_toString (n : Int) :
    ∃ c tail, (toString n).toList = c :: tail ∧ (c = '-' ∨ c.isDigit = true) := by
  cases n with
  | ofNat m =>
    have whole := whole_toDigits m
    obtain ⟨c, tail, front⟩ := List.exists_cons_of_ne_nil whole.filled
    refine ⟨c, tail, ?_, .inr (whole.all c (front ▸ List.mem_cons_self))⟩
    rw [← front]
    exact Text.Numeral.toList_toString m
  | negSucc m =>
    exact ⟨'-', _, Text.Numeral.toList_toString_negSucc m, .inl rfl⟩

private theorem solid_of_sign {c : Char} (sign : c = '-' ∨ c.isDigit = true) :
    isGap c = false ∧ c ≠ ']' ∧ c ∉ ['n', 't', 'f', '"', '[', '\x7b'] := by
  have others : ∀ d ∈ [' ', '\n', '\t', '\r', ']', 'n', 't', 'f', '"', '[', '\x7b'],
      ¬(d = '-' ∨ d.isDigit = true) := by
    simp [Char.isDigit]
  have different : c ∉ [' ', '\n', '\t', '\r', ']', 'n', 't', 'f', '"', '[', '\x7b'] :=
    fun member => others c member sign
  simp only [List.mem_cons, List.not_mem_nil, or_false, not_or] at different ⊢
  simp [isGap, different]

private theorem exists_head_chars (plain : value.Plain) :
    ∃ c tail, value.chars = c :: tail ∧ isGap c = false ∧ c ≠ ']' := by
  cases value with
  | null => exact ⟨'n', _, rfl, rfl, by decide⟩
  | bool b =>
    cases b with
    | true => exact ⟨'t', _, rfl, rfl, by decide⟩
    | false => exact ⟨'f', _, rfl, rfl, by decide⟩
  | integer n =>
    obtain ⟨c, tail, front, sign⟩ := exists_head_toString n
    obtain ⟨solid, unclosed, -⟩ := solid_of_sign sign
    exact ⟨c, tail, front, solid, unclosed⟩
  | decimal literal => exact absurd plain id
  | text s => exact ⟨'"', _, rfl, rfl, by decide⟩
  | array items =>
    cases items with
    | nil => exact ⟨'[', _, rfl, rfl, by decide⟩
    | cons item items => exact ⟨'[', _, rfl, rfl, by decide⟩
  | object members =>
    cases members with
    | nil => exact ⟨'\x7b', _, rfl, rfl, by decide⟩
    | cons member members => exact ⟨'\x7b', _, rfl, rfl, by decide⟩
  | unpaired => exact absurd plain id

private theorem ends_itemChars (items : List Json) (rest : List Char) :
    Ends (itemChars items ++ rest) := by
  intro c first
  cases items with
  | nil =>
    cases first
    decide
  | cons item items =>
    cases first
    decide

private theorem ends_memberChars (members : List (String × Json)) (rest : List Char) :
    Ends (memberChars members ++ rest) := by
  intro c first
  cases members with
  | nil =>
    cases first
    decide
  | cons member members =>
    cases first
    decide

private theorem value_of_items {c : Char} (solid : isGap c = false) (other : c ≠ ']') (fuel : Nat)
    (tail : List Char) : value? (fuel + 1) ('[' :: c :: tail) = items? fuel [] (c :: tail) := by
  have bracket : skipGap ('[' :: c :: tail) = '[' :: c :: tail := rfl
  simp only [value?, bracket, skipGap_of_solid solid]
  split
  · next same => exact absurd (List.cons.inj same).1 other
  · rfl

private theorem value_of_members (name : String) (fuel : Nat) (tail : List Char) :
    value? (fuel + 1) ('\x7b' :: (quoted name ++ tail)) =
      members? fuel true [] (quoted name ++ tail) := by
  have brace : skipGap ('\x7b' :: (quoted name ++ tail)) = '\x7b' :: (quoted name ++ tail) := rfl
  have front : skipGap (quoted name ++ tail) = quoted name ++ tail := rfl
  simp only [value?, brace, front]
  rfl

private theorem items_of_comma {item : Json} {seen : List Json} {tail : List Char}
    (read : value? fuel cs = some (item, rest)) (comma : skipGap rest = ',' :: tail) :
    items? (fuel + 1) seen cs = items? fuel (item :: seen) tail := by
  rw [items?, read]
  simp only [comma]

private theorem items_of_bracket {item : Json} {seen : List Json} {tail : List Char}
    (read : value? fuel cs = some (item, rest)) (bracket : skipGap rest = ']' :: tail) :
    items? (fuel + 1) seen cs = some (.array (item :: seen).reverse, tail) := by
  rw [items?, read]
  simp only [bracket]

private theorem skipGap_name (name : String) (cs : List Char) :
    skipGap (quoted name ++ ':' :: cs) =
      '"' :: (name.toList.flatMap escape ++ '"' :: ':' :: cs) := by
  rw [quoted, List.cons_append, List.append_assoc]
  rfl

private theorem skipGap_colon (cs : List Char) : skipGap (':' :: cs) = ':' :: cs := rfl

private theorem members_of_comma {name : String} {seen : List (String × Json)} {tail : List Char}
    (read : value? fuel cs = some (value, rest)) (comma : skipGap rest = ',' :: tail) :
    members? (fuel + 1) true seen (quoted name ++ ':' :: cs) =
      members? fuel true ((name, value) :: seen) tail := by
  simp only [members?, skipGap_name, text_escapes, skipGap_colon, read, comma, Bool.true_and,
    Option.isSome_some, Option.getD_some]

private theorem members_of_brace {name : String} {seen : List (String × Json)} {tail : List Char}
    (read : value? fuel cs = some (value, rest)) (brace : skipGap rest = '\x7d' :: tail) :
    members? (fuel + 1) true seen (quoted name ++ ':' :: cs) =
      some (.object ((name, value) :: seen).reverse, tail) := by
  simp only [members?, skipGap_name, text_escapes, skipGap_colon, read, brace, Bool.true_and,
    Option.isSome_some, Option.getD_some, if_true]

private theorem length_itemChars_pos (items : List Json) : 0 < (itemChars items).length := by
  cases items with
  | nil => exact Nat.zero_lt_one
  | cons item items => exact Nat.zero_lt_succ _

private theorem length_memberChars_pos (members : List (String × Json)) :
    0 < (memberChars members).length := by
  cases members with
  | nil => exact Nat.zero_lt_one
  | cons member members => exact Nat.zero_lt_succ _

private theorem length_chars_pos (plain : value.Plain) : 0 < value.chars.length := by
  obtain ⟨c, tail, front, -⟩ := exists_head_chars plain
  rw [front]
  exact Nat.zero_lt_succ _

mutual

private theorem value_chars (value : Json) (fuel : Nat) (rest : List Char) (plain : value.Plain)
    (enough : value.chars.length ≤ fuel) (ends : Ends rest) :
    value? fuel (value.chars ++ rest) = some (value, rest) := by
  have positive := length_chars_pos plain
  obtain ⟨fuel, rfl⟩ : ∃ smaller, fuel = smaller + 1 := ⟨fuel - 1, by omega⟩
  cases value with
  | null => rfl
  | bool b => cases b <;> rfl
  | integer n =>
    obtain ⟨c, tail, front, sign⟩ := exists_head_toString n
    obtain ⟨solid, -, other⟩ := solid_of_sign sign
    have number := number_toString n ends
    rw [chars, front, List.cons_append, value_of_number solid other]
    rw [front, List.cons_append] at number
    exact number
  | decimal literal => exact absurd plain id
  | text s =>
    have front : skipGap (quoted s ++ rest) = '"' :: (s.toList.flatMap escape ++ '"' :: rest) := by
      rw [quoted, List.cons_append, List.append_assoc]
      rfl
    simp only [chars, value?, front, text_escapes, Option.map_some, Option.elim_some]
  | array items =>
    cases items with
    | nil => rfl
    | cons item items =>
      obtain ⟨first, others⟩ := plain
      have filled := length_chars_pos first
      have behind := length_itemChars_pos items
      obtain ⟨c, tail, front, solid, unclosed⟩ := exists_head_chars first
      rw [chars, List.length_cons, List.length_append] at enough
      obtain ⟨fuel, rfl⟩ : ∃ smaller, fuel = smaller + 1 := ⟨fuel - 1, by omega⟩
      have read : value? fuel (item.chars ++ (itemChars items ++ rest)) =
          some (item, itemChars items ++ rest) :=
        value_chars item fuel _ first (by omega) (ends_itemChars items rest)
      have all := items_behind items item _ fuel [] rest others (by omega) read
      rw [front, List.cons_append] at all
      rw [chars, front, List.cons_append, List.append_assoc, List.cons_append,
        value_of_items solid unclosed, all]
      rfl
  | object members =>
    cases members with
    | nil => rfl
    | cons member members =>
      obtain ⟨name, value⟩ := member
      obtain ⟨first, others⟩ := plain
      have filled := length_chars_pos first
      have behind := length_memberChars_pos members
      rw [chars, List.length_cons, List.length_append, List.length_cons, List.length_append]
        at enough
      obtain ⟨fuel, rfl⟩ : ∃ smaller, fuel = smaller + 1 := ⟨fuel - 1, by omega⟩
      have read : value? fuel (value.chars ++ (memberChars members ++ rest)) =
          some (value, memberChars members ++ rest) :=
        value_chars value fuel _ first (by omega) (ends_memberChars members rest)
      have all := members_behind members name value _ fuel [] rest others (by omega) read
      rw [chars, List.cons_append, List.append_assoc, List.cons_append, List.append_assoc,
        value_of_members, all]
      rfl
  | unpaired => exact absurd plain id

private theorem items_behind (items : List Json) (item : Json) (cs : List Char) (fuel : Nat)
    (seen : List Json) (rest : List Char) (plain : PlainItems items)
    (enough : (itemChars items).length ≤ fuel)
    (read : value? fuel cs = some (item, itemChars items ++ rest)) :
    items? (fuel + 1) seen cs = some (.array (seen.reverse ++ item :: items), rest) := by
  cases items with
  | nil =>
    rw [itemChars, List.singleton_append] at read
    rw [items_of_bracket read rfl, List.reverse_cons]
  | cons next items =>
    obtain ⟨first, others⟩ := plain
    rw [itemChars, List.length_cons, List.length_append] at enough
    have behind := length_itemChars_pos items
    obtain ⟨fuel, rfl⟩ : ∃ smaller, fuel = smaller + 1 := ⟨fuel - 1, by omega⟩
    have filled := length_chars_pos first
    have read' : value? fuel (next.chars ++ (itemChars items ++ rest)) =
        some (next, itemChars items ++ rest) :=
      value_chars next fuel _ first (by omega) (ends_itemChars items rest)
    have all := items_behind items next _ fuel (item :: seen) rest others (by omega) read'
    rw [List.reverse_cons, List.append_assoc] at all
    rw [itemChars, List.cons_append, List.append_assoc] at read
    rw [items_of_comma read rfl]
    exact all

private theorem members_behind (members : List (String × Json)) (name : String) (value : Json)
    (cs : List Char) (fuel : Nat) (seen : List (String × Json)) (rest : List Char)
    (plain : PlainMembers members) (enough : (memberChars members).length ≤ fuel)
    (read : value? fuel cs = some (value, memberChars members ++ rest)) :
    members? (fuel + 1) true seen (quoted name ++ ':' :: cs) =
      some (.object (seen.reverse ++ (name, value) :: members), rest) := by
  cases members with
  | nil =>
    rw [memberChars, List.singleton_append] at read
    rw [members_of_brace read rfl, List.reverse_cons]
  | cons next members =>
    obtain ⟨second, other⟩ := next
    obtain ⟨first, others⟩ := plain
    rw [memberChars, List.length_cons, List.length_append, List.length_cons, List.length_append]
      at enough
    have filled := length_chars_pos first
    have behind := length_memberChars_pos members
    obtain ⟨fuel, rfl⟩ : ∃ smaller, fuel = smaller + 1 := ⟨fuel - 1, by omega⟩
    have read' : value? fuel (other.chars ++ (memberChars members ++ rest)) =
        some (other, memberChars members ++ rest) :=
      value_chars other fuel _ first (by omega) (ends_memberChars members rest)
    have all := members_behind members second other _ fuel ((name, value) :: seen) rest others
      (by omega) read'
    rw [List.reverse_cons, List.append_assoc] at all
    rw [memberChars, List.cons_append, List.append_assoc, List.cons_append, List.append_assoc] at read
    rw [members_of_comma read rfl]
    exact all

end

/-- A plain value comes back from its text. -/
theorem read_render (plain : value.Plain) : read? value.render = some value := by
  have ends : Ends [] := fun _ first => nomatch first
  have read := value_chars value (value.chars.length + 1) [] plain (Nat.le_succ _) ends
  rw [List.append_nil] at read
  simp only [read?, render, String.toList_ofList, read]
  rfl

end DelayChain.Json
