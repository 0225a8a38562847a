import EntityForge.Text.Casing
import Mathlib.Data.List.TakeWhile

/-!
Decimal numerals and the numbers they stand for.

A number is written without zeros that it does not need, so a numeral that has none is the one its number is
written as, and of any other numeral the zeros in front are lost. Main statements:
`toDigits_ofDigitChars` and `toDigits_eq_plainDigits`.
-/

namespace EntityForge.Text

variable {digits : List Char}

theorem isAsciiDigit_iff {c : Char} : isAsciiDigit c = true ↔ 48 ≤ c.toNat ∧ c.toNat ≤ 57 := by
  simp [isAsciiDigit, Char.le_def, UInt32.le_iff_toNat_le]

theorem isAsciiDigit_of_mem_toDigits {n : Nat} {c : Char} (h : c ∈ Nat.toDigits 10 n) :
    isAsciiDigit c = true := by
  have hdigit : c.isDigit = true := Nat.isDigit_of_mem_toDigits (by decide) (by decide) h
  simpa [isAsciiDigit, Char.isDigit, Char.le_def] using hdigit

/-- A numeral without the zeros in front; one of zeros alone keeps one of them. -/
def plainDigits (digits : List Char) : List Char :=
  if digits.dropWhile (· == '0') = [] then ['0'] else digits.dropWhile (· == '0')

theorem eq_nil_of_plainDigits_zero_cons {rest : List Char} (h : plainDigits ('0' :: rest) = '0' :: rest) :
    rest = [] := by
  rw [plainDigits, List.dropWhile_cons_of_pos (by simp)] at h
  split_ifs at h with hrest
  · exact (List.cons.inj h).2.symm
  · have hle := (List.dropWhile_sublist (· == '0') (l := rest)).length_le
    rw [h, List.length_cons] at hle
    omega

/-- A digit is what its value is written as. -/
theorem digitChar_of_isAsciiDigit {c : Char} (h : isAsciiDigit c = true) :
    c.toNat - 48 < 10 ∧ (c.toNat - 48).digitChar = c := by
  obtain ⟨hlow, hhigh⟩ := isAsciiDigit_iff.1 h
  have hsmall : c.toNat - 48 < 10 := by omega
  refine ⟨hsmall, ?_⟩
  rw [← Char.toNat_inj, Nat.toNat_digitChar_of_lt_ten hsmall]
  omega

/-- Behind a number that is not zero, digits stay what they are. -/
theorem toDigits_ofDigitChars {value : Nat} (hvalue : 0 < value)
    (hdigits : ∀ c ∈ digits, isAsciiDigit c = true) :
    Nat.toDigits 10 (Nat.ofDigitChars 10 digits value) = Nat.toDigits 10 value ++ digits := by
  induction digits generalizing value with
  | nil => rw [Nat.ofDigitChars_nil, List.append_nil]
  | cons c digits ih =>
    obtain ⟨hc, hdigits⟩ := List.forall_mem_cons.1 hdigits
    obtain ⟨hsmall, hchar⟩ := digitChar_of_isAsciiDigit hc
    have hnext : 0 < 10 * value + (c.toNat - 48) := by omega
    calc Nat.toDigits 10 (Nat.ofDigitChars 10 (c :: digits) value)
        = Nat.toDigits 10 (10 * value + (c.toNat - 48)) ++ digits := by
          rw [Nat.ofDigitChars_cons]
          exact ih hnext hdigits
      _ = Nat.toDigits 10 value ++ [c] ++ digits := by
          rw [← Nat.toDigits_append_toDigits (by decide) hvalue hsmall, Nat.toDigits_of_lt_base hsmall, hchar]
      _ = Nat.toDigits 10 value ++ c :: digits := by rw [List.append_assoc, List.singleton_append]

/-- Zeros in front add nothing. -/
theorem ofDigitChars_dropWhile (digits : List Char) :
    Nat.ofDigitChars 10 (digits.dropWhile (· == '0')) 0 = Nat.ofDigitChars 10 digits 0 := by
  induction digits with
  | nil => rfl
  | cons c digits ih =>
    by_cases hc : c = '0'
    · rw [List.dropWhile_cons_of_pos (by simp [hc]), ih, hc, Nat.ofDigitChars_cons]
      rfl
    · rw [List.dropWhile_cons_of_neg (by simp [hc])]

/-- Of a numeral its number keeps all but the zeros in front. -/
theorem toDigits_eq_plainDigits (hdigits : ∀ c ∈ digits, isAsciiDigit c = true) :
    Nat.toDigits 10 (Nat.ofDigitChars 10 digits 0) = plainDigits digits := by
  rw [← ofDigitChars_dropWhile, plainDigits]
  cases hrest : digits.dropWhile (· == '0') with
  | nil => rfl
  | cons c rest =>
    have hmem (d : Char) (hd : d ∈ c :: rest) : isAsciiDigit d = true := by
      rw [← hrest] at hd
      exact hdigits d (List.dropWhile_subset _ hd)
    obtain ⟨hc, hdigits⟩ := List.forall_mem_cons.1 hmem
    obtain ⟨hsmall, hchar⟩ := digitChar_of_isAsciiDigit hc
    have hzero : c ≠ '0' := by
      have hfirst := List.head?_dropWhile_not (· == '0') digits
      simpa [hrest] using hfirst
    have hpos : 0 < c.toNat - 48 := by
      rw [Nat.pos_iff_ne_zero]
      intro hnone
      rw [hnone] at hchar
      exact hzero hchar.symm
    have hvalue : Nat.ofDigitChars 10 (c :: rest) 0 = Nat.ofDigitChars 10 rest (c.toNat - 48) := by
      rw [Nat.ofDigitChars_cons, Nat.mul_zero, Nat.zero_add]
      rfl
    rw [hvalue, toDigits_ofDigitChars hpos hdigits, Nat.toDigits_of_lt_base hsmall, hchar,
      if_neg (List.cons_ne_nil _ _), List.singleton_append]

end EntityForge.Text
