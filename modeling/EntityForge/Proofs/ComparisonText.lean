import EntityForge.Proofs.ComparisonFaults
import EntityForge.Proofs.Numerals

/-!
Comparisons as they are written, and what is read of them.

Any operator may be written with any operands. What is read of it is the comparison, unless the operator takes
another number of operands. A comparison that was read may have been spelled with zeros in front of its operands,
and these are all that is lost when it is written again. Main statements: `complete_chars`, `spelled_chars` and
`written_and_read`.
-/

namespace EntityForge.Comparison

open Text (isAsciiDigit plainDigits)

theorem isNumeral_numberText (n : Nat) : IsNumeral (numberText n) :=
  ⟨Nat.toDigits_ne_nil, fun _ hc => Text.isAsciiDigit_of_mem_toDigits hc⟩

theorem valueOf_numberText (n : Nat) : valueOf (numberText n) = n := by
  rw [valueOf_eq, numberText, Nat.ofDigitChars_ten_toDigits]

theorem map_valueOf_numberText (values : List Nat) : (values.map numberText).map valueOf = values := by
  rw [List.map_map]
  exact List.map_id'' valueOf_numberText values

theorem numberText_valueOf {digits : List Char} (h : IsNumeral digits) :
    numberText (valueOf digits) = plainDigits digits := by
  rw [valueOf_eq, numberText, Text.toDigits_eq_plainDigits h.2]

variable {e : Comparison}

theorem chars_eq (e : Comparison) :
    e.chars = e.op.name.toList ++ '<' :: ([','].intercalate (e.operands.map numberText) ++ ['>']) := by
  rw [chars, List.append_assoc, List.cons_append]
  rfl

theorem complete_chars (hne : e.operands ≠ []) (hsmall : ∀ n ∈ e.operands, n < UInt64.size) :
    Complete e.op (e.operands.map numberText) e.chars where
  text := chars_eq e
  each := by
    rw [List.forall_mem_map]
    intro n hn
    rw [isOperand_iff, valueOf_numberText]
    exact ⟨isNumeral_numberText n, hsmall n hn⟩
  nonempty := by simpa using hne

theorem ofChars_chars (hsmall : ∀ n ∈ e.operands, n < UInt64.size) :
    ofChars e.chars =
      if e.operands = [] then .error (.expected .digit)
      else if e.op.arity.admits e.operands.length then .ok e
      else .error (.wrongArity e.op e.operands.length) := by
  by_cases hne : e.operands = []
  · rw [if_pos hne, chars_eq, hne]
    have hfail : Fails (e.op.name.toList ++ ['<']) ['>'] (.expected .digit) :=
      .operands (.digit (notAhead_cons (by decide)))
    simpa using ofChars_of_fails hfail
  · rw [if_neg hne, ofChars_of_complete (complete_chars hne hsmall), List.length_map, map_valueOf_numberText]

/-- The spelling of what was read differs from the one that was read in zeros alone. -/
theorem spelled_chars {operands : List (List Char)} {s : List Char} (hspelled : Spelled e.op operands s)
    (hvalues : e.operands = operands.map valueOf) : Spelled e.op (operands.map plainDigits) e.chars := by
  have hplain : e.operands.map numberText = operands.map plainDigits := by
    rw [hvalues, List.map_map]
    exact List.map_congr_left fun digits hdigits => numberText_valueOf (hspelled.numerals digits hdigits)
  refine ⟨by rw [chars_eq, hplain], ?_, by rw [List.length_map, hspelled.count]⟩
  rw [← hplain, List.forall_mem_map]
  exact fun n _ => isNumeral_numberText n

theorem ofChars_chars_of_ofChars {s : List Char} (h : ofChars s = .ok e) : ofChars e.chars = .ok e := by
  obtain ⟨operands, hspelled, hvalues, hsmall⟩ := ofChars_eq_ok_iff.1 h
  have hcount : e.op.arity.admits e.operands.length = true := by
    rw [hvalues, List.length_map, hspelled.count]
  have hne : e.operands ≠ [] := by
    rw [hvalues, ne_eq, List.map_eq_nil_iff]
    exact ne_nil_of_admits hspelled.count
  rw [ofChars_chars hsmall, if_neg hne, if_pos hcount]

/-- What is written is read again if there are as many operands as the operator takes. What is read is written
without the zeros in front of its operands, and once written so it stays as it is. -/
theorem written_and_read :
    (∀ e : Comparison, (∀ n ∈ e.operands, n < UInt64.size) →
      parse e.text =
        if e.operands = [] then .error (.expected .digit)
        else if e.op.arity.admits e.operands.length then .ok e
        else .error (.wrongArity e.op e.operands.length)) ∧
    (∀ s e, parse s = .ok e → ∃ operands, Spelled e.op operands s.toList ∧
      Spelled e.op (operands.map plainDigits) e.text.toList) ∧
    ∀ s, ((parse s).map text >>= fun t => (parse t).map text) = (parse s).map text := by
  refine ⟨?_, ?_, ?_⟩
  · intro e hsmall
    rw [parse, text, String.toList_ofList, ofChars_chars hsmall]
  · intro s e h
    obtain ⟨operands, hspelled, hvalues, -⟩ := ofChars_eq_ok_iff.1 h
    refine ⟨operands, hspelled, ?_⟩
    rw [text, String.toList_ofList]
    exact spelled_chars hspelled hvalues
  · intro s
    cases h : parse s with
    | error e => rfl
    | ok e =>
      have hread : parse e.text = .ok e := by
        rw [parse, text, String.toList_ofList, ofChars_chars_of_ofChars h]
      simp only [Except.map, bind, Except.bind, hread]

theorem written_and_read_for_sevens :
    (∀ n ∈ [7, 0, 7], n < UInt64.size) ∧
      parse (text ⟨.between, [7, 0, 7]⟩) = .error (.wrongArity .between 3) ∧
      parse "in<007,00>" = .ok ⟨.isIn, [7, 0]⟩ ∧
      ∃ operands, Spelled .isIn operands "in<007,00>".toList ∧
        Spelled .isIn (operands.map plainDigits) (text ⟨.isIn, [7, 0]⟩).toList := by
  obtain ⟨hwritten, hread, -⟩ := written_and_read
  have hsmall : ∀ n ∈ [7, 0, 7], n < UInt64.size := by decide
  have hzeros : parse "in<007,00>" = .ok ⟨.isIn, [7, 0]⟩ := by decide +kernel
  exact ⟨hsmall, hwritten ⟨.between, [7, 0, 7]⟩ hsmall, hzeros, hread _ _ hzeros⟩

end EntityForge.Comparison
