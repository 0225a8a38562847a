import EntityForge.Proofs.Comparison
import Mathlib.Data.List.TakeWhile

/-!
What is wrong with a text that is no comparison.

A text is read from the left, and it is refused for the first thing that a comparison could not go on with. Up to
there it is the beginning of one. Only of a text with nothing else wrong are the operands counted. Main statements:
`operandsOf_eq_error_iff`, `ofChars_eq_error_iff_fails` and `parse_follows_grammar`.
-/

namespace EntityForge.Comparison

open Text (isAsciiLetter isAsciiDigit)

/-- The text does not go on with a character of the kind. -/
def NotAhead (kind : Char → Bool) (rest : List Char) : Prop := ∀ c ∈ rest.head?, kind c = false

/-- A numeral whose value is below the limit of operands. -/
structure IsOperand (digits : List Char) : Prop where
  numeral : IsNumeral digits
  small : Nat.ofDigitChars 10 digits 0 < UInt64.size

/-- A text that is a comparison but for the number of its operands. -/
structure Complete (op : Comparator) (operands : List (List Char)) (s : List Char) : Prop where
  text : s = op.name.toList ++ '<' :: ([','].intercalate operands ++ ['>'])
  each : ∀ operand ∈ operands, IsOperand operand
  nonempty : operands ≠ []

/-- What follows the opening bracket is as it should be to the end of `before`, and goes wrong with `rest`. -/
inductive OperandsFail : (before rest : List Char) → ComparisonError → Prop where
  | digit {rest : List Char} (h : NotAhead isAsciiDigit rest) : OperandsFail [] rest (.expected .digit)
  | range {digits rest : List Char} (h : IsNumeral digits) (all : NotAhead isAsciiDigit rest)
      (large : UInt64.size ≤ Nat.ofDigitChars 10 digits 0) :
      OperandsFail [] (digits ++ rest) (.numberOutOfRange (String.ofList digits))
  | separator {digits rest : List Char} (h : IsOperand digits) (all : NotAhead isAsciiDigit rest)
      (comma : rest.head? ≠ some ',') (close : rest.head? ≠ some '>') :
      OperandsFail digits rest (.expected .commaOrEnd)
  | trailing {digits rest : List Char} (h : IsOperand digits) (more : rest ≠ []) :
      OperandsFail (digits ++ ['>']) rest (.expected .nothing)
  | next {digits before rest : List Char} {e : ComparisonError} (h : IsOperand digits)
      (later : OperandsFail before rest e) : OperandsFail (digits ++ ',' :: before) rest e

/-- The text is as it should be to the end of `before`, and goes wrong with `rest`. -/
inductive Fails : (before rest : List Char) → ComparisonError → Prop where
  | name {letters rest : List Char} (h : ∀ c ∈ letters, isAsciiLetter c = true)
      (all : NotAhead isAsciiLetter rest) (unknown : ∀ op : Comparator, op.name.toList ≠ letters) :
      Fails [] (letters ++ rest) (.unknownComparator (String.ofList letters))
  | openAngle {op : Comparator} {rest : List Char} (all : NotAhead isAsciiLetter rest)
      (angle : rest.head? ≠ some '<') : Fails op.name.toList rest (.expected .openAngle)
  | operands {op : Comparator} {before rest : List Char} {e : ComparisonError}
      (h : OperandsFail before rest e) : Fails (op.name.toList ++ '<' :: before) rest e

theorem valueOf_eq (digits : List Char) : valueOf digits = Nat.ofDigitChars 10 digits 0 := by
  simp only [valueOf, Nat.ofDigitChars_eq_foldl, Nat.mul_comm]
  rfl

theorem isOperand_iff {digits : List Char} :
    IsOperand digits ↔ IsNumeral digits ∧ valueOf digits < operandLimit := by
  rw [valueOf_eq]
  exact ⟨fun h => ⟨h.numeral, h.small⟩, fun h => ⟨h.1, h.2⟩⟩

theorem isOperand_zero : IsOperand ['0'] := ⟨⟨by decide, List.all_eq_true.1 (by decide)⟩, by decide⟩

section NotAhead

variable {kind : Char → Bool} {cs rest : List Char}

theorem takeWhile_append_of_notAhead (hcs : ∀ c ∈ cs, kind c = true) (hrest : NotAhead kind rest) :
    (cs ++ rest).takeWhile kind = cs ∧ (cs ++ rest).dropWhile kind = rest := by
  rw [List.takeWhile_append_of_pos hcs, List.dropWhile_append_of_pos hcs]
  cases rest with
  | nil => simp
  | cons c rest =>
    have hc : ¬kind c = true := by simp [hrest c rfl]
    rw [List.takeWhile_cons_of_neg hc, List.dropWhile_cons_of_neg hc, List.append_nil]
    exact ⟨rfl, rfl⟩

theorem notAhead_cons {c : Char} (hc : kind c = false) : NotAhead kind (c :: rest) := by
  simpa [NotAhead] using hc

theorem notAhead_dropWhile (kind : Char → Bool) (cs : List Char) : NotAhead kind (cs.dropWhile kind) := by
  intro c hc
  have hfirst := List.head?_dropWhile_not kind cs
  rwa [Option.mem_def.1 hc] at hfirst

end NotAhead

section operand

variable {reversed rest : List Char}

theorem operand_reverse_of_isOperand {digits : List Char} (h : IsOperand digits) :
    operand digits.reverse = .ok (valueOf digits) :=
  (operand_reverse_eq_ok h.numeral.1).2 ⟨(isOperand_iff.1 h).2, rfl⟩

theorem operand_reverse_of_large {digits : List Char} (h : IsNumeral digits)
    (hlarge : UInt64.size ≤ Nat.ofDigitChars 10 digits 0) :
    operand digits.reverse = .error (.numberOutOfRange (String.ofList digits)) := by
  rw [← valueOf_eq] at hlarge
  have hvalue : ¬valueOf digits < operandLimit := Nat.not_lt.2 hlarge
  rw [operand_reverse h.1, if_neg hvalue]

/-- What was read of an operand that is refused is all that goes wrong. -/
theorem operandsFail_of_operand {e : ComparisonError} (hdigits : ∀ c ∈ reversed, isAsciiDigit c = true)
    (hrest : NotAhead isAsciiDigit rest) (h : operand reversed = .error e) :
    OperandsFail [] (reversed.reverse ++ rest) e := by
  by_cases hne : reversed = []
  · subst hne
    rw [operand_nil] at h
    cases h
    exact .digit hrest
  · have hnumeral : IsNumeral reversed.reverse := ⟨by simpa using hne, by simpa using hdigits⟩
    have hvalue := operand_reverse hnumeral.1
    rw [List.reverse_reverse, h] at hvalue
    split at hvalue
    · cases hvalue
    · next hlarge =>
      cases hvalue
      rw [valueOf_eq] at hlarge
      exact .range hnumeral hrest (Nat.le_of_not_lt hlarge)

theorem isOperand_of_operand {n : Nat} (hdigits : ∀ c ∈ reversed, isAsciiDigit c = true)
    (h : operand reversed = .ok n) : IsOperand reversed.reverse := by
  have hnumeral : IsNumeral reversed.reverse := ⟨by simpa using ne_nil_of_operand h, by simpa using hdigits⟩
  rw [← List.reverse_reverse reversed, operand_reverse_eq_ok hnumeral.1] at h
  exact isOperand_iff.2 ⟨hnumeral, h.1⟩

/-- The operand is read before what stands behind it is looked at. -/
theorem operandsOf_of_operand_error {e : ComparisonError} (hrest : NotAhead isAsciiDigit rest)
    (h : operand reversed = .error e) : operandsOf reversed rest = .error e := by
  cases rest with
  | nil => rw [operandsOf, h]; rfl
  | cons c rest => rw [operandsOf, if_neg (by simp [hrest c rfl]), h]; rfl

/-- What stands behind an operand that can be read. -/
theorem operandsOf_of_operand_ok {n : Nat} (hrest : NotAhead isAsciiDigit rest) (h : operand reversed = .ok n) :
    operandsOf reversed rest =
      if rest.head? = some ',' then (operandsOf [] rest.tail).map (n :: ·)
      else if rest.head? = some '>' then
        if rest.tail = [] then .ok [n] else .error (.expected .nothing)
      else .error (.expected .commaOrEnd) := by
  cases rest with
  | nil => rw [operandsOf, h]; rfl
  | cons c rest =>
    rw [operandsOf, if_neg (by simp [hrest c rfl]), h]
    simp only [List.head?_cons, List.tail_cons, Option.some.injEq, ← List.isEmpty_iff]
    rfl

end operand

section operands

variable {before rest : List Char} {e : ComparisonError}

theorem operandsOf_of_operandsFail (h : OperandsFail before rest e) : operandsOf [] (before ++ rest) = .error e := by
  have hread {digits rest : List Char} (hoperand : IsOperand digits) (hrest : NotAhead isAsciiDigit rest) :=
    operandsOf_of_operand_ok hrest (operand_reverse_of_isOperand hoperand)
  induction h with
  | digit hrest => exact operandsOf_of_operand_error hrest operand_nil
  | range hnumeral hrest hlarge =>
    rw [List.nil_append, operandsOf_digits hnumeral.2, List.append_nil]
    exact operandsOf_of_operand_error hrest (operand_reverse_of_large hnumeral hlarge)
  | separator hoperand hrest hcomma hclose =>
    rw [operandsOf_digits hoperand.numeral.2, List.append_nil, hread hoperand hrest, if_neg hcomma, if_neg hclose]
  | @trailing digits rest hoperand hrest =>
    rw [List.append_assoc, operandsOf_digits hoperand.numeral.2, List.append_nil, List.singleton_append,
      hread hoperand (notAhead_cons (by decide))]
    exact if_neg hrest
  | @next digits before rest e hoperand _ ih =>
    rw [List.append_assoc, operandsOf_digits hoperand.numeral.2, List.append_nil, List.cons_append,
      hread hoperand (notAhead_cons (by decide)), if_pos List.head?_cons, List.tail_cons, ih]
    rfl

/-- Where no digit is left to the first operand, it or what stands behind it goes wrong, or else something after
the comma. -/
theorem exists_operandsFail_of_notAhead {reversed cs : List Char} (hdigits : ∀ c ∈ reversed, isAsciiDigit c = true)
    (hend : NotAhead isAsciiDigit cs) (h : operandsOf reversed cs = .error e)
    (hlater : ∀ later, cs = ',' :: later → operandsOf [] later = .error e →
      ∃ before rest, later = before ++ rest ∧ OperandsFail before rest e) :
    ∃ before rest, reversed.reverse ++ cs = before ++ rest ∧ OperandsFail before rest e := by
  cases hoperand : operand reversed with
  | error e' =>
    rw [operandsOf_of_operand_error hend hoperand] at h
    cases h
    exact ⟨[], _, rfl, operandsFail_of_operand hdigits hend hoperand⟩
  | ok n =>
    have hfirst := isOperand_of_operand hdigits hoperand
    rw [operandsOf_of_operand_ok hend hoperand] at h
    split at h
    · next hcomma =>
      obtain ⟨later, rfl⟩ := List.head?_eq_some_iff.1 hcomma
      cases hrest : operandsOf [] later with
      | ok values => simp [hrest, Except.map] at h
      | error e' =>
        rw [List.tail_cons, hrest] at h
        cases h
        obtain ⟨before, rest, rfl, hfail⟩ := hlater later rfl hrest
        exact ⟨_, rest, by simp, .next hfirst hfail⟩
    · next hcomma =>
      split at h
      · next hclose =>
        obtain ⟨later, rfl⟩ := List.head?_eq_some_iff.1 hclose
        split at h
        · cases h
        · next hmore =>
          cases h
          exact ⟨_, later, by simp, .trailing hfirst hmore⟩
      · next hclose =>
        cases h
        exact ⟨_, cs, rfl, .separator hfirst hend hcomma hclose⟩

theorem exists_operandsFail_of_operandsOf {reversed cs : List Char} (hdigits : ∀ c ∈ reversed, isAsciiDigit c = true)
    (h : operandsOf reversed cs = .error e) :
    ∃ before rest, reversed.reverse ++ cs = before ++ rest ∧ OperandsFail before rest e := by
  induction cs generalizing reversed with
  | nil => exact exists_operandsFail_of_notAhead hdigits (by simp [NotAhead]) h (by simp)
  | cons c cs ih =>
    by_cases hdigit : isAsciiDigit c = true
    · rw [operandsOf_digit hdigit] at h
      obtain ⟨before, rest, hsplit, hfail⟩ := ih (List.forall_mem_cons.2 ⟨hdigit, hdigits⟩) h
      exact ⟨before, rest, by rw [← hsplit]; simp, hfail⟩
    · refine exists_operandsFail_of_notAhead hdigits (notAhead_cons (by simpa using hdigit)) h ?_
      rintro later ⟨⟩ hlater
      simpa using ih (by simp) hlater

theorem operandsOf_eq_error_iff {cs : List Char} :
    operandsOf [] cs = .error e ↔ ∃ before rest, cs = before ++ rest ∧ OperandsFail before rest e := by
  constructor
  · intro h
    simpa using exists_operandsFail_of_operandsOf (by simp) h
  · rintro ⟨before, rest, rfl, h⟩
    exact operandsOf_of_operandsFail h

theorem operandsOf_eq_ok_iff {cs : List Char} {values : List Nat} :
    operandsOf [] cs = .ok values ↔
      ∃ operands : List (List Char), cs = [','].intercalate operands ++ ['>'] ∧
        (∀ operand ∈ operands, IsOperand operand) ∧ operands ≠ [] ∧ values = operands.map valueOf := by
  constructor
  · intro h
    obtain ⟨operands, hne, -, hnumerals, htext⟩ := exists_operands_of_operandsOf (by simp) h
    rw [List.reverse_nil, List.nil_append] at htext
    rw [htext, operandsOf_intercalate hne hnumerals, mapM_operand_eq_ok hnumerals] at h
    obtain ⟨rfl, hsmall⟩ := h
    refine ⟨operands, htext, ?_, hne, rfl⟩
    intro operand hoperand
    exact isOperand_iff.2 ⟨hnumerals operand hoperand, hsmall _ (List.mem_map_of_mem hoperand)⟩
  · rintro ⟨operands, rfl, hoperands, hne, rfl⟩
    have hnumerals (operand : List Char) (hoperand : operand ∈ operands) : IsNumeral operand :=
      (hoperands operand hoperand).numeral
    rw [operandsOf_intercalate hne hnumerals, mapM_operand_eq_ok hnumerals]
    refine ⟨rfl, List.forall_mem_map.2 ?_⟩
    intro operand hoperand
    exact (isOperand_iff.1 (hoperands operand hoperand)).2

/-- What is as it should be can be gone on with to the closing bracket. -/
theorem OperandsFail.exists_operands (h : OperandsFail before rest e) :
    ∃ (more : List Char) (operands : List (List Char)), before ++ more = [','].intercalate operands ++ ['>'] ∧
      (∀ operand ∈ operands, IsOperand operand) ∧ operands ≠ [] := by
  induction h with
  | digit | range => exact ⟨['0', '>'], [['0']], rfl, by simpa using isOperand_zero, List.cons_ne_nil _ _⟩
  | @separator digits rest hoperand =>
    exact ⟨['>'], [digits], by simp, by simpa using hoperand, List.cons_ne_nil _ _⟩
  | @trailing digits rest hoperand =>
    exact ⟨[], [digits], by simp, by simpa using hoperand, List.cons_ne_nil _ _⟩
  | @next digits before rest e hoperand _ ih =>
    obtain ⟨more, operands, htext, hoperands, hne⟩ := ih
    obtain ⟨first, operands, rfl⟩ := List.exists_cons_of_ne_nil hne
    refine ⟨more, digits :: first :: operands, ?_, List.forall_mem_cons.2 ⟨hoperand, hoperands⟩,
      List.cons_ne_nil _ _⟩
    rw [List.intercalate_cons_cons, List.append_assoc, List.cons_append, htext]
    simp

end operands

section ofChars

variable {op : Comparator} {operands : List (List Char)} {rest s : List Char} {e : ComparisonError}

theorem ofChars_of_unknown {letters : List Char} (hletters : ∀ c ∈ letters, isAsciiLetter c = true)
    (hrest : NotAhead isAsciiLetter rest) (h : Comparator.ofName? (String.ofList letters) = none) :
    ofChars (letters ++ rest) = .error (.unknownComparator (String.ofList letters)) := by
  rw [ofChars, (takeWhile_append_of_notAhead hletters hrest).1, h]

/-- What stands behind the name of an operator. -/
theorem ofChars_name (op : Comparator) (hrest : NotAhead isAsciiLetter rest) :
    ofChars (op.name.toList ++ rest) =
      if rest.head? = some '<' then do
        let operands ← operandsOf [] rest.tail
        if op.arity.admits operands.length then return ⟨op, operands⟩
        else .error (.wrongArity op operands.length)
      else .error (.expected .openAngle) := by
  obtain ⟨hname, hdrop⟩ := takeWhile_append_of_notAhead (isAsciiLetter_of_mem_name op) hrest
  simp only [ofChars, hname, hdrop, String.ofList_toList, Comparator.ofName?_name]
  split
  · next cs => rw [List.head?_cons, if_pos rfl, List.tail_cons]
  · next hangle =>
    rw [if_neg]
    intro hhead
    obtain ⟨cs, rfl⟩ := List.head?_eq_some_iff.1 hhead
    exact hangle cs rfl

theorem notAhead_angle (cs : List Char) : NotAhead isAsciiLetter ('<' :: cs) := notAhead_cons (by decide)

theorem ofChars_of_complete (h : Complete op operands s) :
    ofChars s = if op.arity.admits operands.length then .ok ⟨op, operands.map valueOf⟩
      else .error (.wrongArity op operands.length) := by
  have hvalues := operandsOf_eq_ok_iff.2 ⟨operands, rfl, h.each, h.nonempty, rfl⟩
  rw [h.text, ofChars_name op (notAhead_angle _), List.head?_cons, if_pos rfl, List.tail_cons, hvalues]
  simp [bind, Except.bind, pure, Except.pure]

theorem ofChars_of_fails {before : List Char} (h : Fails before rest e) : ofChars (before ++ rest) = .error e := by
  cases h with
  | @name letters rest hletters hrest hunknown =>
    apply ofChars_of_unknown hletters hrest
    rw [Comparator.ofName?, List.find?_eq_none]
    intro op _ hname
    exact hunknown op (by rw [beq_iff_eq.1 hname, String.toList_ofList])
  | openAngle hrest hangle => rw [ofChars_name _ hrest, if_neg hangle]
  | @operands op before _ _ hfail =>
    rw [List.append_assoc, List.cons_append, ofChars_name op (notAhead_angle _), if_pos List.head?_cons,
      List.tail_cons, operandsOf_of_operandsFail hfail]
    rfl

/-- Whatever a text is, it goes wrong somewhere, or it is complete. -/
theorem exists_fails_or_complete (s : List Char) :
    (∃ e before rest, s = before ++ rest ∧ Fails before rest e) ∨ ∃ op operands, Complete op operands s := by
  have hletters : ∀ c ∈ s.takeWhile isAsciiLetter, isAsciiLetter c = true := fun c => List.mem_takeWhile_imp
  have hrest : NotAhead isAsciiLetter (s.dropWhile isAsciiLetter) := notAhead_dropWhile _ _
  rw [← List.takeWhile_append_dropWhile (p := isAsciiLetter) (l := s)]
  generalize s.takeWhile isAsciiLetter = letters at *
  generalize s.dropWhile isAsciiLetter = rest at *
  by_cases hname : ∃ op : Comparator, op.name.toList = letters
  · obtain ⟨op, rfl⟩ := hname
    by_cases hangle : rest.head? = some '<'
    · obtain ⟨cs, rfl⟩ := List.head?_eq_some_iff.1 hangle
      cases hvalues : operandsOf [] cs with
      | error e =>
        obtain ⟨before, rest, rfl, hfail⟩ := operandsOf_eq_error_iff.1 hvalues
        exact Or.inl ⟨e, op.name.toList ++ '<' :: before, rest, by simp, .operands hfail⟩
      | ok values =>
        obtain ⟨operands, rfl, hoperands, hne, -⟩ := operandsOf_eq_ok_iff.1 hvalues
        exact Or.inr ⟨op, operands, rfl, hoperands, hne⟩
    · exact Or.inl ⟨_, _, rest, rfl, .openAngle hrest hangle⟩
  · exact Or.inl ⟨_, [], _, rfl, .name hletters hrest (fun op hop => hname ⟨op, hop⟩)⟩

theorem Fails.exists_complete {before : List Char} (h : Fails before rest e) :
    ∃ more op operands, Complete op operands (before ++ more) := by
  have hzero : ∀ operand ∈ [['0']], IsOperand operand := by simpa using isOperand_zero
  cases h with
  | name => exact ⟨Comparator.eq.name.toList ++ "<0>".toList, .eq, [['0']], rfl, hzero, List.cons_ne_nil _ _⟩
  | @openAngle op => exact ⟨"<0>".toList, op, [['0']], rfl, hzero, List.cons_ne_nil _ _⟩
  | @operands op _ _ _ hfail =>
    obtain ⟨more, operands, htext, hoperands, hne⟩ := hfail.exists_operands
    exact ⟨more, op, operands, by rw [← htext]; simp, hoperands, hne⟩

/-- A text that is spelled as a comparison, with operands that are small enough, is complete. -/
theorem ofChars_eq_ok_iff_complete {values : List Nat} :
    ofChars s = .ok ⟨op, values⟩ ↔ ∃ operands, Complete op operands s ∧
      op.arity.admits operands.length = true ∧ values = operands.map valueOf := by
  rw [ofChars_eq_ok_iff]
  constructor
  · rintro ⟨operands, hspelled, rfl, hsmall⟩
    rw [List.forall_mem_map] at hsmall
    have heach (operand : List Char) (h : operand ∈ operands) : IsOperand operand :=
      isOperand_iff.2 ⟨hspelled.numerals operand h, hsmall operand h⟩
    exact ⟨operands, ⟨hspelled.text, heach, ne_nil_of_admits hspelled.count⟩, hspelled.count, rfl⟩
  · rintro ⟨operands, hcomplete, hcount, rfl⟩
    have hnumerals (operand : List Char) (h : operand ∈ operands) : IsNumeral operand :=
      (hcomplete.each operand h).numeral
    refine ⟨operands, ⟨hcomplete.text, hnumerals, hcount⟩, rfl, List.forall_mem_map.2 ?_⟩
    intro operand hoperand
    exact (isOperand_iff.1 (hcomplete.each operand hoperand)).2

theorem ofChars_eq_error_iff_fails :
    ofChars s = .error e ↔ (∃ before rest, s = before ++ rest ∧ Fails before rest e) ∨
      ∃ op operands, Complete op operands s ∧ op.arity.admits operands.length = false ∧
        e = .wrongArity op operands.length := by
  constructor
  · intro h
    rcases exists_fails_or_complete s with ⟨e', before, rest, rfl, hfail⟩ | ⟨op, operands, hcomplete⟩
    · rw [ofChars_of_fails hfail] at h
      cases h
      exact Or.inl ⟨before, rest, rfl, hfail⟩
    · rw [ofChars_of_complete hcomplete] at h
      split at h
      · cases h
      · next hcount =>
        cases h
        exact Or.inr ⟨op, operands, hcomplete, by simpa using hcount, rfl⟩
  · rintro (⟨before, rest, rfl, hfail⟩ | ⟨op, operands, hcomplete, hcount, rfl⟩)
    · exact ofChars_of_fails hfail
    · rw [ofChars_of_complete hcomplete, if_neg (by simp [hcount])]

end ofChars

/-- A text is read as a comparison just when it is complete and has as many operands as its operator takes. Any
other text is refused for what goes wrong in it first, or, if it is complete, for the number of its operands. -/
theorem parse_follows_grammar (s : String) :
    (∀ op values, parse s = .ok ⟨op, values⟩ ↔
      ∃ operands, Complete op operands s.toList ∧ op.arity.admits operands.length = true ∧
        values = operands.map fun digits => Nat.ofDigitChars 10 digits 0) ∧
    (∀ e, parse s = .error e ↔
      (∃ before rest, s.toList = before ++ rest ∧ Fails before rest e) ∨
        ∃ op operands, Complete op operands s.toList ∧ op.arity.admits operands.length = false ∧
          e = .wrongArity op operands.length) ∧
    ∀ before rest e, Fails before rest e → ∃ more op operands, Complete op operands (before ++ more) := by
  have hvalue : valueOf = fun digits => Nat.ofDigitChars 10 digits 0 := funext valueOf_eq
  rw [← hvalue]
  exact ⟨fun op values => ofChars_eq_ok_iff_complete, fun e => ofChars_eq_error_iff_fails,
    fun before rest e h => h.exists_complete⟩

theorem grammar_followed_at_limit :
    Fails "in<7,".toList "18446744073709551616,x".toList (.numberOutOfRange "18446744073709551616") ∧
      parse "in<7,18446744073709551616,x" = .error (.numberOutOfRange "18446744073709551616") ∧
      ∃ more op operands, Complete op operands ("in<7,".toList ++ more) := by
  have hseven : IsOperand ['7'] := ⟨⟨by decide, List.all_eq_true.1 (by decide)⟩, by decide⟩
  have hlarge : OperandsFail [] ("18446744073709551616".toList ++ [',', 'x'])
      (.numberOutOfRange (String.ofList "18446744073709551616".toList)) :=
    .range ⟨by decide, List.all_eq_true.1 (by decide)⟩ (notAhead_cons (by decide)) (by decide)
  have hfail : Fails (Comparator.isIn.name.toList ++ '<' :: (['7'] ++ [','])) "18446744073709551616,x".toList
      (.numberOutOfRange "18446744073709551616") := .operands (.next hseven hlarge)
  obtain ⟨-, hrefused, hbegun⟩ := parse_follows_grammar "in<7,18446744073709551616,x"
  exact ⟨hfail, (hrefused _).2 (Or.inl ⟨_, _, by decide, hfail⟩), hbegun _ _ _ hfail⟩

end EntityForge.Comparison
