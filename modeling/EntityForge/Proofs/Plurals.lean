import EntityForge.Proofs.Lowering
import Mathlib.Data.List.Induction

/-!
Which words have one plural.

A plural is made in one of three ways, by the end of the word, so that words with one plural differ in their
last letters alone, and in two ways only. Paths are made from the plural of the kebab case, where a capital at
the end of the stem is small: two names with one plural have different paths just when `Ey` stands in one of
them where `Eie` stands in the other. Main statements: `pluralOf_pluralChars`, `plural_eq_iff` and
`plural_clash_iff`.
-/

namespace EntityForge

namespace Text

/-- Only the letter itself and its capital are lowered to an `e` at the end. -/
theorem getLast?_lowerChar_iff {c : Char} : (lowerChar c).getLast? = some 'e' ↔ c = 'e' ∨ c = 'E' := by
  constructor
  · intro h
    rcases lowerChar_cases c with ⟨hupper, hlower⟩ | hself | ⟨codes, hcodes, -, habove⟩
    · rw [hlower, List.getLast?_singleton, Option.some.injEq] at h
      have hcode : (Char.ofNat (c.toNat + 32)).toNat = 'e'.toNat := by rw [h]
      rw [toNat_lowered hupper] at hcode
      have hcapital : c.toNat = 'E'.toNat := Nat.add_right_cancel hcode
      exact Or.inr (Char.toNat_inj.1 hcapital)
    · rw [hself] at h
      exact Or.inl (Option.some.inj h)
    · rw [hcodes] at h
      obtain ⟨code, hmem, hcode⟩ := List.mem_map.1 (List.mem_of_getLast? h)
      have hbelow : 'e'.toNat < 105 := by decide
      exact absurd hcode (ofNat_ne_of_lt (by decide) (hbelow.trans_le (habove code hmem)))
  · rintro (rfl | rfl) <;> decide

theorem lowerChar_ne_nil (c : Char) : lowerChar c ≠ [] := by
  by_cases hslash : c = '/'
  · rw [hslash]
    decide
  · exact (lowerChar_of_ne (by decide) hslash).1

end Text

namespace Identifier

open Text

/-- How a plural is made: after an `s` with `es`, with `ies` for a `y` that comes after no `e`, else with `s`. -/
inductive PluralOf : List Char → List Char → Prop
  | sibilant (stem : List Char) : PluralOf (stem ++ ['s']) (stem ++ ['s', 'e', 's'])
  | consonant (stem : List Char) (h : stem.getLast? ≠ some 'e') :
    PluralOf (stem ++ ['y']) (stem ++ ['i', 'e', 's'])
  | plain (word : List Char) (hs : word.getLast? ≠ some 's')
    (hy : ∀ stem, word = stem ++ ['y'] → stem.getLast? = some 'e') : PluralOf word (word ++ ['s'])

theorem pluralOf_pluralChars (cs : List Char) : PluralOf cs (pluralChars cs) := by
  unfold pluralChars
  split
  · next stem hreverse =>
    obtain rfl := List.reverse_eq_iff.1 hreverse
    simpa using PluralOf.sibilant stem.reverse
  · next stem hreverse =>
    obtain rfl := List.reverse_eq_iff.1 hreverse
    refine .plain _ (by simp) fun other hother => ?_
    rw [List.reverse_cons, List.append_left_inj] at hother
    simp [← hother]
  · next stem hvowel hreverse =>
    obtain rfl := List.reverse_eq_iff.1 hreverse
    rw [List.reverse_cons]
    refine .consonant _ ?_
    intro hlast
    rw [List.getLast?_reverse, List.head?_eq_some_iff] at hlast
    obtain ⟨rest, rfl⟩ := hlast
    exact hvowel rest rfl
  · next hs hvowel hy =>
    refine .plain _ ?_ ?_
    · intro hlast
      rw [List.getLast?_eq_head?_reverse, List.head?_eq_some_iff] at hlast
      obtain ⟨rest, hrest⟩ := hlast
      exact hs rest hrest
    · rintro stem rfl
      exact absurd (by simp) (hy stem.reverse)

/-- A word that has the plural of another one, and is no longer than it. -/
inductive Homonym : List Char → List Char → Prop
  | sibilant (stem : List Char) : Homonym (stem ++ ['s']) (stem ++ ['s', 'e'])
  | consonant (stem : List Char) (h : stem.getLast? ≠ some 'e') : Homonym (stem ++ ['y']) (stem ++ ['i', 'e'])

theorem pluralChars_s (stem : List Char) : pluralChars (stem ++ ['s']) = stem ++ ['s', 'e', 's'] := by
  simp [pluralChars]

theorem pluralChars_se (stem : List Char) : pluralChars (stem ++ ['s', 'e']) = stem ++ ['s', 'e', 's'] := by
  simp [pluralChars]

theorem pluralChars_ie (stem : List Char) : pluralChars (stem ++ ['i', 'e']) = stem ++ ['i', 'e', 's'] := by
  simp [pluralChars]

theorem pluralChars_ey (stem : List Char) : pluralChars (stem ++ ['e', 'y']) = stem ++ ['e', 'y', 's'] := by
  simp [pluralChars]

theorem pluralChars_y {stem : List Char} (h : stem.getLast? ≠ some 'e') :
    pluralChars (stem ++ ['y']) = stem ++ ['i', 'e', 's'] := by
  have hplural := pluralOf_pluralChars (stem ++ ['y'])
  generalize pluralChars (stem ++ ['y']) = plural at hplural ⊢
  generalize hword : stem ++ ['y'] = word at hplural
  cases hplural with
  | sibilant other => simp at hword
  | consonant other _ => rw [(List.append_left_inj _).1 hword]
  | plain _ _ hy => exact absurd (hy stem hword.symm) h

theorem Homonym.pluralChars_eq {a b : List Char} (h : Homonym a b) : pluralChars a = pluralChars b := by
  cases h with
  | sibilant stem => rw [pluralChars_s, pluralChars_se]
  | consonant stem h => rw [pluralChars_y h, pluralChars_ie]

/-- A plural in `ses` comes from `s` or from `se`, one in `ies` from `y` or from `ie`, and any other from one
word only. -/
theorem PluralOf.homonym {a b plural : List Char} (ha : PluralOf a plural) (hb : PluralOf b plural) :
    a = b ∨ Homonym a b ∨ Homonym b a := by
  have hplain {stem word : List Char} {c d : Char} (h : stem ++ [c, d, 's'] = word ++ ['s']) :
      word = stem ++ [c, d] := by
    have hsplit : word ++ ['s'] = (stem ++ [c, d]) ++ ['s'] := by simp [← h]
    exact (List.append_left_inj _).1 hsplit
  have hother (stem word : List Char) : stem ++ ['s', 'e', 's'] ≠ word ++ ['i', 'e', 's'] := by
    intro h
    have hreverse := congrArg List.reverse h
    simp at hreverse
  cases ha with
  | sibilant stem =>
    generalize hplural : stem ++ ['s', 'e', 's'] = plural at hb
    cases hb with
    | sibilant => exact Or.inl (by rw [(List.append_left_inj _).1 hplural])
    | consonant => exact absurd hplural (hother _ _)
    | plain =>
      rw [hplain hplural]
      exact Or.inr (Or.inl (.sibilant stem))
  | consonant stem hstem =>
    generalize hplural : stem ++ ['i', 'e', 's'] = plural at hb
    cases hb with
    | sibilant => exact absurd hplural.symm (hother _ _)
    | consonant => exact Or.inl (by rw [(List.append_left_inj _).1 hplural])
    | plain =>
      rw [hplain hplural]
      exact Or.inr (Or.inl (.consonant stem hstem))
  | plain =>
    generalize hplural : a ++ ['s'] = plural at hb
    cases hb with
    | sibilant stem =>
      rw [hplain hplural.symm]
      exact Or.inr (Or.inr (.sibilant stem))
    | consonant stem hstem =>
      rw [hplain hplural.symm]
      exact Or.inr (Or.inr (.consonant stem hstem))
    | plain => exact Or.inl ((List.append_left_inj _).1 hplural)

theorem pluralChars_eq_iff {a b : List Char} :
    pluralChars a = pluralChars b ↔ a = b ∨ Homonym a b ∨ Homonym b a := by
  constructor
  · intro h
    have ha := pluralOf_pluralChars a
    rw [h] at ha
    exact ha.homonym (pluralOf_pluralChars b)
  · rintro (rfl | h | h)
    · rfl
    · exact h.pluralChars_eq
    · exact h.pluralChars_eq.symm

theorem Homonym.getLast? {a b : List Char} (h : Homonym a b) : a.getLast? ≠ some 'e' ∧ b.getLast? = some 'e' := by
  cases h <;> simp

theorem homonym_iff {a b : String} :
    Homonym a.toList b.toList ↔ (∃ x, a = x ++ "s" ∧ b = x ++ "se") ∨
      ∃ x : String, x.toList.getLast? ≠ some 'e' ∧ a = x ++ "y" ∧ b = x ++ "ie" := by
  have hword {word ending : String} {stem : List Char} :
      stem ++ ending.toList = word.toList ↔ word = String.ofList stem ++ ending := by
    rw [← String.toList_inj, String.toList_append, String.toList_ofList, eq_comm]
  constructor
  · generalize ha : a.toList = short
    generalize hb : b.toList = long
    rintro (⟨stem⟩ | ⟨stem, hstem⟩)
    · exact Or.inl ⟨String.ofList stem, hword.1 ha.symm, hword.1 hb.symm⟩
    · exact Or.inr ⟨String.ofList stem, by simpa using hstem, hword.1 ha.symm, hword.1 hb.symm⟩
  · rintro (⟨x, rfl, rfl⟩ | ⟨x, hx, rfl, rfl⟩)
    · simpa using Homonym.sibilant x.toList
    · simpa using Homonym.consonant x.toList hx

theorem plural_eq_iff {a b : String} :
    plural a = plural b ↔ a = b ∨ Homonym a.toList b.toList ∨ Homonym b.toList a.toList := by
  rw [plural, plural, String.ofList_inj, pluralChars_eq_iff, String.toList_inj]

/-- Of the words with one plural, at most one ends in an `e`, and at most one does not. -/
theorem eq_of_plural {a b : String} (h : plural a = plural b)
    (hlast : a.toList.getLast? = some 'e' ↔ b.toList.getLast? = some 'e') : a = b := by
  rcases plural_eq_iff.1 h with hsame | hword | hword
  · exact hsame
  · exact absurd (hlast.2 hword.getLast?.2) hword.getLast?.1
  · exact absurd (hlast.1 hword.getLast?.2) hword.getLast?.1

section Kebab

variable {separator : Char} {before : Option Char}

/-- No word begins at a small letter, which stays as it is. -/
theorem splitWords_append_of_lower {cs tail : List Char} (h : tail.all isAsciiLower = true) :
    splitWords separator before (cs ++ tail) = splitWords separator before cs ++ tail := by
  induction cs generalizing before with
  | nil =>
    have htail : ∀ c ∈ tail, IsLowered c := fun c hc => isLowered_of_lower (List.all_eq_true.1 h c hc)
    rw [List.nil_append, splitWords_nil, List.nil_append, splitWords_of_isLowered htail]
  | cons c cs ih =>
    obtain ⟨gap, -, -, hwords⟩ := splitWords_cons separator before c
    simp only [List.cons_append, hwords, ih, List.append_assoc]

theorem exists_splitWords_concat (separator : Char) (before : Option Char) (cs : List Char) (c : Char) :
    ∃ start, splitWords separator before (cs ++ [c]) = start ++ lowerChar c := by
  induction cs generalizing before with
  | nil =>
    obtain ⟨gap, -, -, hwords⟩ := splitWords_cons separator before c
    refine ⟨gap, ?_⟩
    rw [List.nil_append, hwords, splitWords_nil, List.append_nil]
  | cons first cs ih =>
    obtain ⟨gap, -, -, hwords⟩ := splitWords_cons separator before first
    obtain ⟨start, hstart⟩ := ih (some first)
    refine ⟨gap ++ lowerChar first ++ start, ?_⟩
    simp only [List.cons_append, hwords, hstart, List.append_assoc]

/-- The kebab case of a word ends in an `e` where the word ends in one, small or capital. -/
theorem getLast?_splitWords_iff {cs : List Char} :
    (splitWords separator before cs).getLast? = some 'e' ↔ cs.getLast? = some 'e' ∨ cs.getLast? = some 'E' := by
  induction cs using List.reverseRecOn with
  | nil => simp
  | append_singleton cs c _ =>
    obtain ⟨start, hstart⟩ := exists_splitWords_concat separator before cs c
    have hlast : (start ++ lowerChar c).getLast? = (lowerChar c).getLast? :=
      List.getLast?_append_of_ne_nil _ (lowerChar_ne_nil c)
    rw [hstart, hlast, getLast?_lowerChar_iff]
    simp

end Kebab

/-- In kebab case two words of one plural lose it just where a capital `E` comes before the `y`. -/
theorem Homonym.kebab_ne_iff {a b : List Char} (h : Homonym a b) :
    pluralChars (splitWords '-' none a) ≠ pluralChars (splitWords '-' none b) ↔
      ∃ stem, a = stem ++ ['E', 'y'] ∧ b = stem ++ ['E', 'i', 'e'] := by
  cases h with
  | sibilant stem =>
    have hplural : pluralChars (splitWords '-' none (stem ++ ['s'])) =
        pluralChars (splitWords '-' none (stem ++ ['s', 'e'])) := by
      rw [splitWords_append_of_lower (by decide), splitWords_append_of_lower (by decide), pluralChars_s,
        pluralChars_se]
    refine iff_of_false (not_not_intro hplural) ?_
    rintro ⟨other, hword, -⟩
    have hreverse := congrArg List.reverse hword
    simp at hreverse
  | consonant stem hstem =>
    rw [splitWords_append_of_lower (by decide), splitWords_append_of_lower (by decide), pluralChars_ie]
    by_cases hcapital : stem.getLast? = some 'E'
    · obtain ⟨init, rfl⟩ := List.getLast?_eq_some_iff.1 hcapital
      obtain ⟨start, hstart⟩ := exists_splitWords_concat '-' none init 'E'
      have hlower : lowerChar 'E' = ['e'] := by decide
      rw [hstart, hlower, List.append_assoc, List.singleton_append, pluralChars_ey]
      exact iff_of_true (by simp) ⟨init, by simp, by simp⟩
    · have hlast : (splitWords '-' none stem).getLast? ≠ some 'e' := by
        rw [ne_eq, getLast?_splitWords_iff, not_or]
        exact ⟨hstem, hcapital⟩
      refine iff_of_false (not_not_intro (pluralChars_y hlast)) ?_
      rintro ⟨init, hword, -⟩
      have hsplit : stem ++ ['y'] = (init ++ ['E']) ++ ['y'] := by simp [hword]
      rw [(List.append_left_inj _).1 hsplit, List.getLast?_concat] at hcapital
      exact hcapital rfl

theorem homonym_capital (stem : List Char) : Homonym (stem ++ ['E', 'y']) (stem ++ ['E', 'i', 'e']) := by
  simpa using Homonym.consonant (stem ++ ['E']) (by simp)

/-- Two names have one plural and yet two in kebab case just where one ends in `Ey` and the other in `Eie`, after
the same stem. -/
theorem plural_clash_iff {a b : String} :
    plural a = plural b ∧ plural (kebab a) ≠ plural (kebab b) ↔
      (∃ stem, a = stem ++ "Ey" ∧ b = stem ++ "Eie") ∨ ∃ stem, b = stem ++ "Ey" ∧ a = stem ++ "Eie" := by
  have hstem {a b : String} : (∃ stem, a.toList = stem ++ ['E', 'y'] ∧ b.toList = stem ++ ['E', 'i', 'e']) ↔
      ∃ stem, a = stem ++ "Ey" ∧ b = stem ++ "Eie" := by
    constructor
    · rintro ⟨stem, ha, hb⟩
      refine ⟨String.ofList stem, ?_, ?_⟩ <;> simp [← String.toList_inj, ha, hb]
    · rintro ⟨stem, rfl, rfl⟩
      exact ⟨stem.toList, by simp, by simp⟩
  rw [← hstem, ← hstem, plural_eq_iff]
  simp only [plural, kebab, String.toList_ofList, ne_eq, String.ofList_inj]
  constructor
  · rintro ⟨hsame | hword | hword, hne⟩
    · exact absurd (by rw [hsame]) hne
    · exact Or.inl (hword.kebab_ne_iff.1 hne)
    · exact Or.inr (hword.kebab_ne_iff.1 (Ne.symm hne))
  · rintro (⟨stem, ha, hb⟩ | ⟨stem, hb, ha⟩)
    · have hword : Homonym a.toList b.toList := by
        rw [ha, hb]
        exact homonym_capital stem
      exact ⟨Or.inr (Or.inl hword), hword.kebab_ne_iff.2 ⟨stem, ha, hb⟩⟩
    · have hword : Homonym b.toList a.toList := by
        rw [ha, hb]
        exact homonym_capital stem
      exact ⟨Or.inr (Or.inr hword), (hword.kebab_ne_iff.2 ⟨stem, hb, ha⟩).symm⟩

end Identifier

end EntityForge
