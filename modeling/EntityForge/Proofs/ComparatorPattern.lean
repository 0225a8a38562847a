import EntityForge.Comparator.Pattern
import EntityForge.Proofs.Comparison

/-!
The pattern of comparisons against the reader of comparisons.

A regular expression of generated code is known there by its text alone, so what it matches is said of
the text: `Pattern.ofLiteral?` reads the part of the notation that is needed. The pattern takes what is
spelled as a comparison, and of that the reader refuses an operand that is too large. Main statements:
`accepts_comparatorPattern_iff`, `matches_iff_spelled` and `pattern_agrees_iff`.
-/

namespace EntityForge

namespace Pattern

section reading

/-- A group that is being read: the alternatives before the current one, and the parts of the current
one, both last first. -/
structure Draft where
  alternatives : List Pattern
  parts : List Pattern
  deriving Repr, DecidableEq

namespace Draft

def empty : Draft := ⟨[], []⟩

def add (draft : Draft) (part : Pattern) : Draft := { draft with parts := part :: draft.parts }

/-- A character that stands for itself, together with those before it. -/
def addChar : Draft → Char → Draft
  | ⟨alternatives, literal text :: parts⟩, c => ⟨alternatives, literal (text.push c) :: parts⟩
  | draft, c => draft.add (literal (String.singleton c))

def next (draft : Draft) : Draft := ⟨Pattern.sequence draft.parts.reverse :: draft.alternatives, []⟩

def close (draft : Draft) : Pattern := choice draft.next.alternatives.reverse

end Draft

/-- The characters that mean something else than themselves. -/
def isSpecial (c : Char) : Bool := "^$\\.*+?()[]\x7b\x7d|/".toList.contains c

/-- What a regular expression means; `outer` are the groups around the one that is being read. A star
is read only behind a group. -/
def read : Draft → (outer : List Draft) → List Char → Option Pattern
  | draft, [], [] => some draft.close
  | _, _ :: _, [] => none
  | draft, outer, '^' :: cs => read (draft.add start) outer cs
  | draft, outer, '$' :: cs => read (draft.add stop) outer cs
  | draft, outer, '|' :: cs => read draft.next outer cs
  | draft, outer, '(' :: cs => read .empty (draft :: outer) cs
  | draft, around :: outer, ')' :: cs => read (around.add (group draft.close)) outer cs
  | draft, outer, '\\' :: 'd' :: '+' :: cs => read (draft.add digits) outer cs
  | ⟨alternatives, group inner :: parts⟩, outer, '*' :: cs =>
    read ⟨alternatives, repeated (group inner) :: parts⟩ outer cs
  | draft, outer, c :: cs => if isSpecial c then none else read (draft.addChar c) outer cs

/-- What a literal of generated code means: a regular expression between slashes. -/
def ofLiteral? (text : String) : Option Pattern :=
  match text.toList with
  | '/' :: cs => if cs.getLast? = some '/' then read .empty [] cs.dropLast else none
  | _ => none

end reading

/-- The regular expression that is written as `text` finds something in `s`. -/
def Matches (text s : String) : Prop := ∃ p, ofLiteral? text = some p ∧ p.Accepts s.toList

section takes

variable {p q : Pattern} {before taken after : List Char}

theorem takes_start_iff : Takes start before taken after ↔ before = [] ∧ taken = [] := by
  constructor
  · rintro ⟨⟩
    exact ⟨rfl, rfl⟩
  · rintro ⟨rfl, rfl⟩
    exact .start after

theorem takes_stop_iff : Takes stop before taken after ↔ taken = [] ∧ after = [] := by
  constructor
  · rintro ⟨⟩
    exact ⟨rfl, rfl⟩
  · rintro ⟨rfl, rfl⟩
    exact .stop before

theorem takes_literal_iff {text : String} :
    Takes (literal text) before taken after ↔ taken = text.toList := by
  constructor
  · rintro ⟨⟩
    rfl
  · rintro rfl
    exact .literal text before after

theorem takes_digits_iff : Takes digits before taken after ↔ Comparison.IsNumeral taken := by
  constructor
  · rintro (_ | _ | _ | ⟨_, _, hne, hdigits⟩)
    exact ⟨hne, hdigits⟩
  · rintro ⟨hne, hdigits⟩
    exact .digits before after hne hdigits

theorem takes_seq_iff :
    Takes (seq p q) before taken after ↔
      ∃ a b, taken = a ++ b ∧ Takes p before a (b ++ after) ∧ Takes q (before ++ a) b after := by
  constructor
  · intro h
    cases h with
    | seq hp hq => exact ⟨_, _, rfl, hp, hq⟩
  · rintro ⟨a, b, rfl, hp, hq⟩
    exact .seq hp hq

theorem takes_either_iff :
    Takes (either p q) before taken after ↔ Takes p before taken after ∨ Takes q before taken after := by
  constructor
  · intro h
    cases h with
    | left _ hp => exact .inl hp
    | right _ hq => exact .inr hq
  · rintro (hp | hq)
    · exact .left q hp
    · exact .right p hq

theorem takes_group_iff : Takes (group p) before taken after ↔ Takes p before taken after := by
  constructor
  · intro h
    cases h with
    | group hp => exact hp
  · exact .group

theorem takes_choice_iff {ps : List Pattern} (hne : ps ≠ []) :
    Takes (choice ps) before taken after ↔ ∃ p ∈ ps, Takes p before taken after := by
  induction ps with
  | nil => exact absurd rfl hne
  | cons p ps ih =>
    cases ps with
    | nil => simp [choice]
    | cons q ps =>
      change Takes (either p (choice (q :: ps))) before taken after ↔ _
      rw [takes_either_iff, ih (List.cons_ne_nil q ps)]
      exact (List.exists_mem_cons_iff (Takes · before taken after) p (q :: ps)).symm

/-- What takes the same stretches wherever they stand takes any number of them in a row. -/
theorem takes_repeated_iff {α : Type} {IsItem : α → Prop} {write : α → List Char}
    (hp : ∀ before taken after,
      Takes p before taken after ↔ ∃ item, IsItem item ∧ taken = write item) :
    Takes (repeated p) before taken after ↔
      ∃ items : List α, (∀ item ∈ items, IsItem item) ∧ taken = items.flatMap write := by
  constructor
  · intro h
    generalize hq : repeated p = q at h
    induction h with
    | never => exact ⟨[], by simp, rfl⟩
    | more hfirst _ _ ih =>
      cases hq
      obtain ⟨item, hitem, rfl⟩ := (hp _ _ _).1 hfirst
      obtain ⟨items, hitems, rfl⟩ := ih rfl
      exact ⟨item :: items, List.forall_mem_cons.2 ⟨hitem, hitems⟩, rfl⟩
    | start | stop | literal | digits | seq | left | right | group => cases hq
  · rintro ⟨items, hitems, rfl⟩
    induction items generalizing before with
    | nil => exact .never p before after
    | cons item items ih =>
      obtain ⟨hitem, hitems⟩ := List.forall_mem_cons.1 hitems
      exact .more ((hp _ _ _).2 ⟨item, hitem, rfl⟩) (ih hitems)

end takes

end Pattern

open Comparison Pattern

variable {before taken after : List Char}

theorem intercalate_comma (first : List Char) (rest : List (List Char)) :
    [','].intercalate (first :: rest) = first ++ rest.flatMap (',' :: ·) := by
  induction rest generalizing first with
  | nil => simp
  | cons next rest ih =>
    rw [List.intercalate_cons_cons, ih]
    simp

theorem takes_comma_iff :
    Takes (seq (literal ",") digits) before taken after ↔
      ∃ digits, IsNumeral digits ∧ taken = ',' :: digits := by
  simp only [takes_seq_iff, takes_literal_iff, takes_digits_iff]
  constructor
  · rintro ⟨_, digits, rfl, rfl, hdigits⟩
    exact ⟨digits, hdigits, rfl⟩
  · rintro ⟨digits, hdigits, rfl⟩
    exact ⟨[','], digits, rfl, rfl, hdigits⟩

namespace Arity

theorem takes_operandPattern_iff (arity : Arity) :
    Takes arity.operandPattern before taken after ↔
      ∃ operands : List (List Char), arity.admits operands.length = true ∧
        (∀ operand ∈ operands, IsNumeral operand) ∧ taken = [','].intercalate operands := by
  cases arity with
  | one =>
    rw [operandPattern, takes_digits_iff]
    constructor
    · intro h
      exact ⟨[taken], rfl, by simpa using h, by simp⟩
    · rintro ⟨operands, hcount, hnumerals, rfl⟩
      obtain ⟨digits, rfl⟩ : ∃ digits, operands = [digits] := by
        simpa [admits, List.length_eq_one_iff] using hcount
      simpa using hnumerals
  | two =>
    have hpattern : Arity.two.operandPattern = seq digits (seq (literal ",") digits) := rfl
    rw [hpattern, takes_seq_iff]
    simp only [takes_comma_iff, takes_digits_iff]
    constructor
    · rintro ⟨first, _, rfl, hfirst, second, hsecond, rfl⟩
      exact ⟨[first, second], rfl, by simp [hfirst, hsecond], by simp⟩
    · rintro ⟨operands, hcount, hnumerals, rfl⟩
      obtain ⟨first, second, rfl⟩ : ∃ first second, operands = [first, second] := by
        simpa [admits, List.length_eq_two] using hcount
      obtain ⟨hfirst, hsecond⟩ : IsNumeral first ∧ IsNumeral second := by simpa using hnumerals
      exact ⟨first, ',' :: second, by simp, hfirst, second, hsecond, rfl⟩
  | many =>
    have hitem (before taken after : List Char) :
        Takes (group (seq (literal ",") digits)) before taken after ↔
          ∃ digits, IsNumeral digits ∧ taken = ',' :: digits := by
      rw [takes_group_iff, takes_comma_iff]
    rw [operandPattern, takes_seq_iff]
    simp only [takes_digits_iff, takes_repeated_iff hitem]
    constructor
    · rintro ⟨first, _, rfl, hfirst, rest, hrest, rfl⟩
      exact ⟨first :: rest, by simp [admits], List.forall_mem_cons.2 ⟨hfirst, hrest⟩,
        (intercalate_comma first rest).symm⟩
    · rintro ⟨operands, hcount, hnumerals, rfl⟩
      obtain ⟨first, rest, rfl⟩ := List.exists_cons_of_ne_nil (ne_nil_of_admits hcount)
      obtain ⟨hfirst, hrest⟩ := List.forall_mem_cons.1 hnumerals
      exact ⟨first, _, intercalate_comma first rest, hfirst, rest, hrest, rfl⟩

/-- The names in the pattern of an arity are those of the operators that have it. -/
theorem takes_names_iff (arity : Arity) :
    Takes (choice (((Comparator.all.filter fun c => c.arity == arity).map Comparator.name).map
        literal)) before taken after ↔
      ∃ op : Comparator, op.arity = arity ∧ taken = op.name.toList := by
  have hall (op : Comparator) : op ∈ Comparator.all := by cases op <;> decide
  rw [takes_choice_iff (by cases arity <;> decide)]
  constructor
  · rintro ⟨p, hp, htaken⟩
    obtain ⟨name, hname, rfl⟩ := List.mem_map.1 hp
    obtain ⟨op, hop, rfl⟩ := List.mem_map.1 hname
    exact ⟨op, by simpa [hall] using hop, takes_literal_iff.1 htaken⟩
  · rintro ⟨op, harity, htaken⟩
    refine ⟨literal op.name, ?_, takes_literal_iff.2 htaken⟩
    exact List.mem_map_of_mem (List.mem_map_of_mem (by simp [hall, harity]))

/-- The pattern of an arity takes nothing but a whole text. -/
theorem takes_pattern_iff (arity : Arity) :
    Takes arity.pattern before taken after ↔
      (before = [] ∧ after = []) ∧
        ∃ op operands, op.arity = arity ∧ Spelled op operands taken := by
  simp only [pattern, Pattern.sequence, takes_seq_iff, takes_start_iff, takes_stop_iff,
    takes_group_iff, takes_literal_iff, takes_names_iff, takes_operandPattern_iff]
  constructor
  · rintro ⟨_, _, rfl, ⟨rfl, rfl⟩, _, _, rfl, ⟨op, rfl, rfl⟩, _, _, rfl, rfl, _, _, rfl,
      ⟨operands, hcount, hnumerals, rfl⟩, _, _, rfl, rfl, rfl, rfl⟩
    exact ⟨⟨rfl, rfl⟩, op, operands, rfl, by simp, hnumerals, hcount⟩
  · rintro ⟨⟨rfl, rfl⟩, op, operands, rfl, rfl, hnumerals, hcount⟩
    exact ⟨[], _, rfl, ⟨rfl, rfl⟩, op.name.toList, _, rfl, ⟨op, rfl, rfl⟩, ['<'], _, rfl, rfl,
      [','].intercalate operands, _, rfl, ⟨operands, hcount, hnumerals, rfl⟩, ['>'], [], rfl, rfl,
      rfl, rfl⟩

end Arity

namespace Pattern

/-- The pattern of comparisons accepts what is spelled as a comparison, however large its operands
are. -/
theorem accepts_comparatorPattern_iff {s : List Char} :
    comparatorPattern.Accepts s ↔ ∃ op operands, Spelled op operands s := by
  have htakes (before taken after : List Char) :
      Takes comparatorPattern before taken after ↔
        (before = [] ∧ after = []) ∧ ∃ op operands, Spelled op operands taken := by
    rw [comparatorPattern, takes_group_iff, takes_choice_iff (List.cons_ne_nil _ _)]
    constructor
    · rintro ⟨p, hp, htaken⟩
      obtain ⟨arity, rfl⟩ : ∃ arity : Arity, p = arity.pattern := by
        simp only [List.mem_cons, List.not_mem_nil, or_false] at hp
        obtain rfl | rfl | rfl := hp <;> exact ⟨_, rfl⟩
      obtain ⟨hplace, op, operands, -, hspelled⟩ := arity.takes_pattern_iff.1 htaken
      exact ⟨hplace, op, operands, hspelled⟩
    · rintro ⟨hplace, op, operands, hspelled⟩
      refine ⟨op.arity.pattern, ?_, op.arity.takes_pattern_iff.2 ⟨hplace, op, operands, rfl, hspelled⟩⟩
      cases op.arity <;> simp
  constructor
  · rintro ⟨before, taken, after, rfl, h⟩
    obtain ⟨⟨rfl, rfl⟩, op, operands, hspelled⟩ := (htakes before taken after).1 h
    exact ⟨op, operands, by simpa using hspelled⟩
  · rintro ⟨op, operands, hspelled⟩
    exact ⟨[], s, [], by simp, (htakes [] s []).2 ⟨⟨rfl, rfl⟩, op, operands, hspelled⟩⟩

theorem ofLiteral?_comparatorPattern :
    ofLiteral? comparatorPattern.literalText = some comparatorPattern := by decide +kernel

theorem matches_iff_spelled {s : String} :
    Matches comparatorPattern.literalText s ↔ ∃ op operands, Spelled op operands s.toList := by
  rw [Matches, ofLiteral?_comparatorPattern, ← accepts_comparatorPattern_iff]
  simp

end Pattern

/-- The regular expression of generated code and the reader agree on a text unless it is spelled as a
comparison one of whose operands reaches the limit. -/
theorem pattern_agrees_iff (s : String) :
    (Matches comparatorPattern.literalText s ↔ ∃ e, parse s = .ok e) ↔
      ∀ op operands, Spelled op operands s.toList →
        ∀ operand ∈ operands, valueOf operand < operandLimit := by
  rw [matches_iff_spelled]
  constructor
  · intro hagree op operands hspelled
    obtain ⟨e, he⟩ := hagree.1 ⟨op, operands, hspelled⟩
    rw [parse, ofChars_of_spelled hspelled] at he
    simp only [bind_eq_ok, mapM_operand_eq_ok hspelled.numerals] at he
    obtain ⟨_, ⟨rfl, hvalues⟩, -⟩ := he
    exact List.forall_mem_map.1 hvalues
  · intro hsmall
    constructor
    · rintro ⟨op, operands, hspelled⟩
      exact ⟨⟨op, operands.map valueOf⟩, ofChars_eq_ok_iff.2 ⟨operands, hspelled, rfl,
        List.forall_mem_map.2 (hsmall op operands hspelled)⟩⟩
    · rintro ⟨e, he⟩
      obtain ⟨operands, hspelled, -⟩ := ofChars_eq_ok_iff.1 he
      exact ⟨e.op, operands, hspelled⟩

/-- The first number that is no operand is matched all the same. -/
theorem pattern_disagrees_at_limit :
    ¬(Matches comparatorPattern.literalText "eq<18446744073709551616>" ↔
      ∃ e, parse "eq<18446744073709551616>" = .ok e) := by
  intro hagree
  have hspelled : Spelled .eq ["18446744073709551616".toList] "eq<18446744073709551616>".toList :=
    ⟨by decide, by simp [IsNumeral]; decide, rfl⟩
  obtain ⟨e, he⟩ := hagree.1 (matches_iff_spelled.2 ⟨_, _, hspelled⟩)
  have hrefused : parse "eq<18446744073709551616>" =
      .error (.numberOutOfRange "18446744073709551616") := by decide +kernel
  rw [hrefused] at he
  cases he

end EntityForge
