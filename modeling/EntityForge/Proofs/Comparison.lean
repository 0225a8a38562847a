import EntityForge.Comparator
import EntityForge.Proofs.Refusal
import Mathlib.Data.List.Basic

/-!
The grammar of comparisons, and what is read of a text that keeps to it.

A text is spelled as a comparison if it is the name of an operator and, in angle brackets, as many
numerals as the operator takes, with a comma between each two. How large the numerals are is no matter
of spelling, but a numeral that reaches the limit of operands cannot be read. Main statements:
`ofChars_of_spelled` and `ofChars_eq_ok_iff`.
-/

namespace EntityForge.Comparison

open Text (isAsciiLetter isAsciiDigit)

def IsNumeral (digits : List Char) : Prop := digits ≠ [] ∧ ∀ c ∈ digits, isAsciiDigit c = true

structure Spelled (op : Comparator) (operands : List (List Char)) (s : List Char) : Prop where
  text : s = op.name.toList ++ '<' :: ([','].intercalate operands ++ ['>'])
  numerals : ∀ operand ∈ operands, IsNumeral operand
  count : op.arity.admits operands.length = true

theorem ne_nil_of_admits {arity : Arity} {operands : List (List Char)}
    (h : arity.admits operands.length = true) : operands ≠ [] := by
  rintro rfl
  cases arity <;> simp [Arity.admits] at h

theorem isAsciiLetter_of_mem_name (op : Comparator) :
    ∀ c ∈ op.name.toList, isAsciiLetter c = true := by
  rw [← List.all_eq_true]
  cases op <;> decide

theorem ofName?_eq_some {name : String} {op : Comparator} (h : Comparator.ofName? name = some op) :
    op.name = name := by
  have hname := List.find?_some h
  simpa using hname

section operand

theorem operand_nil : operand [] = .error (.expected .digit) := rfl

theorem operand_reverse {digits : List Char} (h : digits ≠ []) :
    operand digits.reverse =
      if valueOf digits < operandLimit then .ok (valueOf digits)
      else .error (.numberOutOfRange (String.ofList digits)) := by
  simp [operand, h]

theorem operand_reverse_eq_ok {digits : List Char} {n : Nat} (h : digits ≠ []) :
    operand digits.reverse = .ok n ↔ valueOf digits < operandLimit ∧ n = valueOf digits := by
  rw [operand_reverse h]
  split
  · next hvalue => simp [hvalue, eq_comm]
  · next hvalue => simp [hvalue]

theorem ne_nil_of_operand {reversed : List Char} {n : Nat} (h : operand reversed = .ok n) :
    reversed ≠ [] := by
  rintro rfl
  simp [operand_nil] at h

theorem mapM_operand_eq_ok {operands : List (List Char)} {values : List Nat}
    (hnumerals : ∀ operand ∈ operands, IsNumeral operand) :
    (operands.mapM fun digits => operand digits.reverse) = .ok values ↔
      values = operands.map valueOf ∧ ∀ n ∈ values, n < operandLimit := by
  induction operands generalizing values with
  | nil =>
    rw [List.mapM_nil, pure_eq_ok]
    constructor
    · rintro rfl
      exact ⟨rfl, fun n hn => absurd hn List.not_mem_nil⟩
    · exact fun h => h.1.symm
  | cons digits operands ih =>
    obtain ⟨hdigits, hnumerals⟩ := List.forall_mem_cons.1 hnumerals
    simp only [List.mapM_cons, bind_eq_ok, pure_eq_ok, ih hnumerals, operand_reverse_eq_ok hdigits.1]
    constructor
    · rintro ⟨n, ⟨hn, rfl⟩, ns, ⟨rfl, hns⟩, rfl⟩
      exact ⟨rfl, List.forall_mem_cons.2 ⟨hn, hns⟩⟩
    · rintro ⟨rfl, hvalues⟩
      obtain ⟨hn, hns⟩ := List.forall_mem_cons.1 hvalues
      exact ⟨_, ⟨hn, rfl⟩, _, ⟨rfl, hns⟩, rfl⟩

end operand

section operands

variable {reversed cs : List Char}

theorem operandsOf_digit {c : Char} (h : isAsciiDigit c = true) :
    operandsOf reversed (c :: cs) = operandsOf (c :: reversed) cs := by
  rw [operandsOf, if_pos h]

theorem operandsOf_digits {digits : List Char} (h : ∀ c ∈ digits, isAsciiDigit c = true) :
    operandsOf reversed (digits ++ cs) = operandsOf (digits.reverse ++ reversed) cs := by
  induction digits generalizing reversed with
  | nil => rfl
  | cons c digits ih =>
    obtain ⟨hc, hdigits⟩ := List.forall_mem_cons.1 h
    rw [List.cons_append, operandsOf_digit hc, ih hdigits]
    simp

theorem operandsOf_comma :
    operandsOf reversed (',' :: cs) = (do return (← operand reversed) :: (← operandsOf [] cs)) := by
  have hcomma : isAsciiDigit ',' = false := by decide
  simp [operandsOf, hcomma]

theorem operandsOf_close : operandsOf reversed ['>'] = (do return [← operand reversed]) := by
  have hclose : isAsciiDigit '>' = false := by decide
  simp [operandsOf, hclose]

/-- Numerals between commas are read one by one. -/
theorem operandsOf_intercalate {operands : List (List Char)} (hne : operands ≠ [])
    (hnumerals : ∀ operand ∈ operands, IsNumeral operand) :
    operandsOf [] ([','].intercalate operands ++ ['>']) =
      operands.mapM fun digits => operand digits.reverse := by
  induction operands with
  | nil => exact absurd rfl hne
  | cons digits operands ih =>
    obtain ⟨hdigits, hnumerals⟩ := List.forall_mem_cons.1 hnumerals
    cases operands with
    | nil =>
      rw [List.intercalate_singleton, operandsOf_digits hdigits.2, operandsOf_close]
      simp
    | cons next operands =>
      have hrest := ih (List.cons_ne_nil _ _) hnumerals
      rw [List.intercalate_cons_cons, List.append_assoc, List.append_assoc,
        operandsOf_digits hdigits.2, List.singleton_append, operandsOf_comma, hrest, List.mapM_cons]
      simp

/-- Behind the digits of an operand there is a comma, and more operands after it, or the closing bracket alone. -/
theorem operandsOf_eq_ok_of_not_digit {c : Char} {values : List Nat} (hdigit : ¬isAsciiDigit c = true)
    (h : operandsOf reversed (c :: cs) = .ok values) :
    ∃ n, operand reversed = .ok n ∧
      (c = ',' ∧ (∃ rest, operandsOf [] cs = .ok rest ∧ values = n :: rest) ∨
        c = '>' ∧ cs = [] ∧ values = [n]) := by
  simp only [operandsOf, if_neg hdigit, bind_eq_ok] at h
  obtain ⟨n, hn, h⟩ := h
  refine ⟨n, hn, ?_⟩
  split at h
  · next hcomma =>
    simp only [bind_eq_ok, pure_eq_ok] at h
    obtain ⟨rest, hrest, rfl⟩ := h
    exact Or.inl ⟨hcomma, rest, hrest, rfl⟩
  · split at h
    · next hclose =>
      split at h
      · next hend => exact Or.inr ⟨hclose, by simpa using hend, by simpa [pure, Except.pure, eq_comm] using h⟩
      · cases h
    · cases h

/-- What can be read is spelled as numerals between commas, the first of which may have begun. -/
theorem exists_operands_of_operandsOf {values : List Nat}
    (hdigits : ∀ c ∈ reversed, isAsciiDigit c = true) (h : operandsOf reversed cs = .ok values) :
    ∃ operands : List (List Char), operands ≠ [] ∧ operands.length = values.length ∧
      (∀ operand ∈ operands, IsNumeral operand) ∧
      reversed.reverse ++ cs = [','].intercalate operands ++ ['>'] := by
  induction cs generalizing reversed values with
  | nil =>
    simp only [operandsOf, bind_eq_ok] at h
    obtain ⟨_, _, herror⟩ := h
    cases herror
  | cons c cs ih =>
    by_cases hdigit : isAsciiDigit c = true
    · rw [operandsOf_digit hdigit] at h
      obtain ⟨operands, hne, hlength, hnumerals, htext⟩ :=
        ih (List.forall_mem_cons.2 ⟨hdigit, hdigits⟩) h
      refine ⟨operands, hne, hlength, hnumerals, ?_⟩
      rw [← htext]
      simp
    · obtain ⟨n, hn, ⟨rfl, rest, hrest, rfl⟩ | ⟨rfl, rfl, rfl⟩⟩ := operandsOf_eq_ok_of_not_digit hdigit h
      all_goals
        have hfirst : IsNumeral reversed.reverse :=
          ⟨by simpa using ne_nil_of_operand hn, by simpa using hdigits⟩
      · obtain ⟨operands, hne, hlength, hnumerals, htext⟩ :=
          ih (fun c hc => absurd hc List.not_mem_nil) hrest
        refine ⟨reversed.reverse :: operands, List.cons_ne_nil _ _, congrArg (· + 1) hlength,
          List.forall_mem_cons.2 ⟨hfirst, hnumerals⟩, ?_⟩
        obtain ⟨next, operands, rfl⟩ := List.exists_cons_of_ne_nil hne
        rw [List.intercalate_cons_cons, List.append_assoc, List.append_assoc, ← htext]
        rfl
      · exact ⟨[reversed.reverse], List.cons_ne_nil _ _, rfl, by simpa using hfirst, by simp⟩

end operands

section ofChars

variable {op : Comparator} {operands : List (List Char)} {s : List Char} {e : Comparison}

/-- A text that is spelled as a comparison is read as far as its numerals are. -/
theorem ofChars_of_spelled (h : Spelled op operands s) :
    ofChars s = (do return ⟨op, ← operands.mapM fun digits => operand digits.reverse⟩) := by
  obtain ⟨rfl, hnumerals, hcount⟩ := h
  have hangle : isAsciiLetter '<' = false := by decide
  have hname : (op.name.toList ++ '<' :: ([','].intercalate operands ++ ['>'])).takeWhile
      isAsciiLetter = op.name.toList := by
    rw [List.takeWhile_append_of_pos (isAsciiLetter_of_mem_name op),
      List.takeWhile_cons_of_neg (by simp [hangle]), List.append_nil]
  have hrest : (op.name.toList ++ '<' :: ([','].intercalate operands ++ ['>'])).dropWhile
      isAsciiLetter = '<' :: ([','].intercalate operands ++ ['>']) := by
    rw [List.dropWhile_append_of_pos (isAsciiLetter_of_mem_name op),
      List.dropWhile_cons_of_neg (by simp [hangle])]
  have hoperands := operandsOf_intercalate (ne_nil_of_admits hcount) hnumerals
  simp only [ofChars, hname, String.ofList_toList, Comparator.ofName?_name, hrest, hoperands]
  cases hvalues : operands.mapM fun digits => operand digits.reverse with
  | error e => rfl
  | ok values =>
    have hlength : values.length = operands.length := (mapM_eq_ok.1 hvalues).length_eq.symm
    simp [bind, Except.bind, hlength, hcount]

theorem exists_spelled_of_ofChars (h : ofChars s = .ok e) :
    ∃ operands, Spelled e.op operands s := by
  simp only [ofChars] at h
  split at h
  · cases h
  · next op hop =>
    split at h
    · next rest hrest =>
      simp only [bind_eq_ok] at h
      obtain ⟨values, hvalues, h⟩ := h
      split at h
      · next hcount =>
        obtain rfl : (⟨op, values⟩ : Comparison) = e := by simpa [pure, Except.pure] using h
        obtain ⟨operands, -, hlength, hnumerals, htext⟩ :=
          exists_operands_of_operandsOf (fun c hc => absurd hc List.not_mem_nil) hvalues
        refine ⟨operands, ?_, hnumerals, hlength ▸ hcount⟩
        calc s = s.takeWhile isAsciiLetter ++ s.dropWhile isAsciiLetter :=
              List.takeWhile_append_dropWhile.symm
          _ = op.name.toList ++ '<' :: rest := by rw [ofName?_eq_some hop, String.toList_ofList, hrest]
          _ = _ := by rw [← htext]; rfl
      · cases h
    · cases h

/-- A text is read as a comparison exactly if it is spelled as one and every numeral keeps below the
limit of operands. -/
theorem ofChars_eq_ok_iff :
    ofChars s = .ok e ↔
      ∃ operands, Spelled e.op operands s ∧ e.operands = operands.map valueOf ∧
        ∀ n ∈ e.operands, n < operandLimit := by
  constructor
  · intro h
    obtain ⟨operands, hspelled⟩ := exists_spelled_of_ofChars h
    rw [ofChars_of_spelled hspelled] at h
    simp only [bind_eq_ok, pure_eq_ok] at h
    obtain ⟨values, hvalues, he⟩ := h
    have hoperands : e.operands = values := he ▸ rfl
    exact ⟨operands, hspelled, hoperands ▸ (mapM_operand_eq_ok hspelled.numerals).1 hvalues⟩
  · rintro ⟨operands, hspelled, hvalues⟩
    rw [ofChars_of_spelled hspelled, (mapM_operand_eq_ok hspelled.numerals).2 hvalues]
    rfl

end ofChars

end EntityForge.Comparison
