import Mathlib.Data.List.Basic
import DelayChain.Text.Blank
import DelayChain.Text.Numeral

/-!
# Texts and their parts

A text is determined by its bytes. Two texts that are equal and split at a separator have equal parts,
where the separator does not occur in the part in front of it, or in the part behind it, on either
side. Numbers are such parts: reading their digits gives them back, and separators are no digits.
-/

set_option autoImplicit false
set_option relaxedAutoImplicit false

namespace DelayChain

theorem Bytes.ofText_injective {text text' : String} (same : ofText text = ofText text') :
    text = text' := by
  have arrays : text.toUTF8.data = text'.toUTF8.data := Array.toList_inj.mp same
  exact String.toByteArray_inj.mp (ByteArray.ext arrays)

namespace Text.Separator

variable {u u' w w' : List Char} {c : Char}

theorem eq_of_first (fresh : c ∉ u) (fresh' : c ∉ u') (same : u ++ c :: w = u' ++ c :: w') :
    u = u' ∧ w = w' := by
  induction u generalizing u' with
  | nil =>
    cases u' with
    | nil => exact ⟨rfl, List.tail_eq_of_cons_eq same⟩
    | cons d rest =>
      obtain ⟨rfl, -⟩ := List.cons.inj same
      exact absurd List.mem_cons_self fresh'
  | cons d rest ih =>
    cases u' with
    | nil =>
      obtain ⟨rfl, -⟩ := List.cons.inj same
      exact absurd List.mem_cons_self fresh
    | cons d' rest' =>
      obtain ⟨rfl, behind⟩ := List.cons.inj same
      obtain ⟨rfl, equal⟩ := ih (List.not_mem_of_not_mem_cons fresh)
        (List.not_mem_of_not_mem_cons fresh') behind
      exact ⟨rfl, equal⟩

theorem eq_of_last (fresh : c ∉ w) (fresh' : c ∉ w') (same : u ++ c :: w = u' ++ c :: w') :
    u = u' ∧ w = w' := by
  have reversed : w.reverse ++ c :: u.reverse = w'.reverse ++ c :: u'.reverse := by
    simpa using congrArg List.reverse same
  obtain ⟨behind, front⟩ := eq_of_first (by simpa using fresh) (by simpa using fresh') reversed
  exact ⟨List.reverse_injective front, List.reverse_injective behind⟩

end Text.Separator

namespace Text.Hex

theorem isSome_of_bytes_eq_some {digits : List Char} {bytes : Bytes}
    (read : bytes? digits = some bytes) : ∀ c ∈ digits, (digitValue? c).isSome := by
  fun_induction bytes? digits generalizing bytes with
  | case1 => simp
  | case2 c => exact nomatch read
  | case3 high low rest h l tail readRest readLow readHigh ih =>
    intro c member
    rcases List.mem_cons.mp member with rfl | member
    · rw [readHigh]
      rfl
    · rcases List.mem_cons.mp member with rfl | member
      · rw [readLow]
        rfl
      · exact ih readRest c member
  | case4 high low rest fails ih => exact nomatch read

theorem not_mem_digits {c : Char} (other : digitValue? c = none) (bytes : Bytes) :
    c ∉ digits bytes := by
  intro member
  have digit := isSome_of_bytes_eq_some (bytes_digits bytes) c member
  rw [other] at digit
  exact Bool.false_ne_true digit

end Text.Hex

namespace Text.Numeral

variable {base : Nat}

private theorem digitValue_digitChar {d : Nat} (small : base ≤ 16) (below : d < base) :
    digitValue? base (Nat.digitChar d) = some d := by
  have known : ∀ e < 16, Hex.digitValue? (Nat.digitChar e) = some e := by decide
  rw [digitValue?, known d (by omega)]
  simp [below]

private theorem digits_append (value : Nat) (front back : List Char) :
    digits? base value (front ++ back) =
      (digits? base value front).bind fun value => digits? base value back := by
  induction front generalizing value with
  | nil => rfl
  | cons c rest ih =>
    rw [List.cons_append, digits?, digits?]
    cases digitValue? base c with
    | none => rfl
    | some d => exact ih _

private theorem digits_toDigits (large : 1 < base) (small : base ≤ 16) (n : Nat) :
    digits? base 0 (Nat.toDigits base n) = some n := by
  induction n using Nat.strongRecOn with
  | ind n ih =>
    rw [Nat.toDigits_eq_if large]
    split
    · next below => simp [digits?, digitValue_digitChar small below]
    · next reaches =>
      have shorter : n / base < n := Nat.div_lt_self (by omega) large
      have last := digitValue_digitChar small (Nat.mod_lt n (by omega))
      rw [digits_append, ih (n / base) shorter]
      simp [digits?, last, Nat.div_add_mod]

theorem toDigits_injective {n m : Nat} (same : Nat.toDigits base n = Nat.toDigits base m)
    (large : 1 < base := by decide) (small : base ≤ 16 := by decide) : n = m := by
  have read := digits_toDigits large small n
  rw [same, digits_toDigits large small m] at read
  exact (Option.some.inj read).symm

private theorem isSome_of_digits_eq_some {value n : Nat} {cs : List Char}
    (read : digits? base value cs = some n) : ∀ c ∈ cs, (Hex.digitValue? c).isSome := by
  induction cs generalizing value with
  | nil => simp
  | cons d rest ih =>
    obtain ⟨v, digit, read⟩ := Option.bind_eq_some_iff.mp read
    rw [digitValue?, Option.filter_eq_some_iff] at digit
    refine List.forall_mem_cons.mpr ⟨?_, ih read⟩
    rw [digit.1]
    rfl

theorem not_mem_toDigits {c : Char} (n : Nat) (other : Hex.digitValue? c = none := by decide)
    (large : 1 < base := by decide) (small : base ≤ 16 := by decide) :
    c ∉ Nat.toDigits base n := by
  intro member
  have digit := isSome_of_digits_eq_some (digits_toDigits large small n) c member
  rw [other] at digit
  exact Bool.false_ne_true digit

private theorem grouped_of_not_mem {value : Nat} {cs : List Char} (solid : '_' ∉ cs) :
    grouped? base value cs = digits? base value cs := by
  induction cs generalizing value with
  | nil => rfl
  | cons c rest ih =>
    obtain ⟨other, solid⟩ := not_or.mp (List.mem_cons.not.mp solid)
    rw [grouped?, digits?]
    · cases digitValue? base c with
      | none => rfl
      | some d => exact ih solid
    · exact fun same => other same.symm

theorem natural_hex (n : Nat) : natural? 16 (hex n) = some n := by
  have read : digits? 16 0 (Nat.toDigits 16 n) = some n := digits_toDigits (by decide) (by decide) n
  have unsigned : '+' ∉ Nat.toDigits 16 n := not_mem_toDigits n
  have solid : '_' ∉ Nat.toDigits 16 n := not_mem_toDigits n
  have filled : Nat.toDigits 16 n ≠ [] := Nat.toDigits_ne_nil
  rw [← grouped_of_not_mem solid] at read
  unfold natural? hex
  rw [String.toList_ofList]
  generalize Nat.toDigits 16 n = cs at read unsigned solid filled
  split
  · exact absurd List.mem_cons_self unsigned
  · dsimp only
    split
    · exact absurd rfl filled
    · exact absurd List.mem_cons_self solid
    · exact read

theorem trim_toDigits (n : Nat) : Blank.trim (Nat.toDigits 10 n) = Nat.toDigits 10 n := by
  have solid : ∀ c ∈ Nat.toDigits 10 n, Blank.isBlank c = false := by
    intro c member
    have digit := Nat.isDigit_of_mem_toDigits (by decide) (by decide) member
    simp only [Char.isDigit, Bool.and_eq_true, decide_eq_true_eq] at digit
    have low : 48 ≤ c.toNat := digit.1
    have high : c.toNat ≤ 57 := digit.2
    simp only [Blank.isBlank, Blank.ranges, List.any_cons, List.any_nil, Bool.or_false,
      Bool.or_eq_false_iff, Bool.and_eq_false_iff, decide_eq_false_iff_not]
    omega
  have kept : ∀ cs : List Char, (∀ c ∈ cs, Blank.isBlank c = false) →
      cs.dropWhile Blank.isBlank = cs := by
    intro cs solid
    cases cs with
    | nil => rfl
    | cons c rest => rw [List.dropWhile_cons, solid c List.mem_cons_self, if_neg Bool.false_ne_true]
  rw [Blank.trim, kept _ solid, kept, List.reverse_reverse]
  intro c member
  exact solid c (List.mem_reverse.mp member)

theorem unsigned_toDigits {n limit : Nat} (within : n ≤ limit) :
    unsigned? limit (Nat.toDigits 10 n) = some n := by
  have read : digits? 10 0 (Nat.toDigits 10 n) = some n := digits_toDigits (by decide) (by decide) n
  have unsign : '+' ∉ Nat.toDigits 10 n := not_mem_toDigits n
  have filled : Nat.toDigits 10 n ≠ [] := Nat.toDigits_ne_nil
  generalize Nat.toDigits 10 n = cs at read unsign filled
  cases cs with
  | nil => exact absurd rfl filled
  | cons c rest =>
    have other : c ≠ '+' := fun same => unsign (same ▸ List.mem_cons_self)
    have decimal : decimal? (c :: rest) = some n := read
    unfold unsigned?
    split
    · next same => exact absurd (List.cons.inj same).1 other
    · dsimp only
      rw [decimal, Option.filter_some, if_pos (decide_eq_true within)]

@[simp] theorem toList_toString (n : Nat) : (toString n).toList = Nat.toDigits 10 n := by
  rw [Nat.toString_eq_ofList_toDigits, String.toList_ofList]

theorem toList_toString_negSucc (n : Nat) :
    (toString (Int.negSucc n)).toList = '-' :: Nat.toDigits 10 (n + 1) := by
  show ("-" ++ toString (n + 1)).toList = _
  rw [String.toList_append, toList_toString]
  rfl

/-- The text of an integer determines it: no digit is taken for the sign. -/
theorem eq_of_toString_eq {n m : Int} (same : (toString n).toList = (toString m).toList) :
    n = m := by
  have digits (k : Nat) : (toString (Int.ofNat k)).toList = Nat.toDigits 10 k := toList_toString k
  have unsigned (k : Nat) : '-' ∉ Nat.toDigits 10 k := not_mem_toDigits k
  cases n with
  | ofNat n =>
    cases m with
    | ofNat m =>
      rw [digits, digits] at same
      exact congrArg Int.ofNat (toDigits_injective same)
    | negSucc m =>
      rw [digits, toList_toString_negSucc] at same
      exact absurd (same ▸ List.mem_cons_self) (unsigned n)
  | negSucc n =>
    cases m with
    | ofNat m =>
      rw [digits, toList_toString_negSucc] at same
      exact absurd (same ▸ List.mem_cons_self) (unsigned m)
    | negSucc m =>
      rw [toList_toString_negSucc, toList_toString_negSucc] at same
      have behind := toDigits_injective (List.cons.inj same).2
      exact congrArg Int.negSucc (Nat.succ.inj behind)

end Text.Numeral

end DelayChain
