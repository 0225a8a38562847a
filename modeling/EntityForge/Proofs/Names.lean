import EntityForge.Identifier
import EntityForge.Proofs.Path

/-!
What becomes of slashes, dots and backslashes in the name that a model's directory gets.

Lowering a name and writing separators into it neither brings such a mark nor takes one away, and a plural
ends in the letter that makes it one. So the directory has a part for every part of the name, and it steps
up where the name does. Main statements: `mark_mem_kebabPlural`, `head?_kebabPlural`,
`getLast?_kebabPlural` and `up_mem_kebabPlural`.
-/

namespace EntityForge

namespace Text

/-- A mark stands before the small letters and is no capital, so no letter is lowered to it. -/
def IsMark (c : Char) : Prop := 0 < c.toNat ∧ c.toNat < 97 ∧ isAsciiUpper c = false

instance (c : Char) : Decidable (IsMark c) := inferInstanceAs (Decidable (_ ∧ _))

variable {c mark : Char}

/-- A code leads to no character that comes before it; one that is no character's leads to the first of all. -/
theorem ofNat_ne_of_lt (hpos : 0 < c.toNat) {code : Nat} (h : c.toNat < code) : Char.ofNat code ≠ c := by
  intro hsame
  have hval : (Char.ofNat code).toNat = c.toNat := by rw [hsame]
  by_cases hvalid : code.isValidChar
  · rw [Char.ofNat, dif_pos hvalid] at hval
    have hcode : code = c.toNat := hval
    omega
  · rw [Char.ofNat, dif_neg hvalid] at hval
    have hzero : 0 = c.toNat := hval
    omega

theorem toNat_of_upper (h : isAsciiUpper c = true) : 65 ≤ c.toNat ∧ c.toNat ≤ 90 := by
  simpa [isAsciiUpper, Char.le_def, UInt32.le_iff_toNat_le] using h

theorem toNat_lowered (h : isAsciiUpper c = true) : (Char.ofNat (c.toNat + 32)).toNat = c.toNat + 32 := by
  have hrange := toNat_of_upper h
  rw [Char.ofNat, dif_pos (show (c.toNat + 32).isValidChar from Or.inl (by omega))]
  rfl

theorem lowerChar_of_upper (h : isAsciiUpper c = true) : lowerChar c = [Char.ofNat (c.toNat + 32)] := by
  have hrange := toNat_of_upper h
  rw [lowerChar, if_pos (by omega), if_pos h]

theorem lowerChar_of_ascii (hascii : c.toNat < 128) (h : isAsciiUpper c = false) : lowerChar c = [c] := by
  rw [lowerChar, if_pos hascii, if_neg (by simp [h])]

set_option maxRecDepth 4000 in
/-- No run reaches down to the first small letters, let alone to the marks. -/
theorem lowerRuns_above : ∀ run ∈ lowerRuns, 105 ≤ (run.first : Int) + run.shift := by decide

theorem lowerExpansions_above :
    ∀ entry ∈ lowerExpansions, entry.2 ≠ [] ∧ ∀ code ∈ entry.2, 105 ≤ code := by decide

/-- A character beyond ASCII is lowered to itself, or to others that come after the first small letters. -/
theorem lowerChar_beyond (h : ¬c.toNat < 128) :
    lowerChar c = [c] ∨ ∃ codes, lowerChar c = codes.map Char.ofNat ∧ codes ≠ [] ∧ ∀ code ∈ codes, 105 ≤ code := by
  rw [lowerChar, if_neg h, mapBeyondAscii]
  split
  · next codes hlookup =>
    obtain ⟨before, after, hentries, -⟩ := List.lookup_eq_some_iff.1 hlookup
    exact Or.inr ⟨codes, rfl, lowerExpansions_above (c.toNat, codes) (by rw [hentries]; simp)⟩
  · split
    · next run hfind =>
      have hcovers := List.find?_some hfind
      have habove := lowerRuns_above run (List.mem_of_find?_eq_some hfind)
      simp only [CaseRun.covers, Bool.and_eq_true, decide_eq_true_eq] at hcovers
      have hfirst : run.first ≤ c.toNat := hcovers.1.1
      have hcode : 105 ≤ run.apply c.toNat := by
        unfold CaseRun.apply
        omega
      exact Or.inr ⟨[run.apply c.toNat], rfl, List.cons_ne_nil _ _, by simpa using hcode⟩
    · exact Or.inl rfl

/-- What a character is lowered to: a small letter if it is a capital of ASCII, itself, or others that come
after the first small letters. -/
theorem lowerChar_cases (c : Char) :
    isAsciiUpper c = true ∧ lowerChar c = [Char.ofNat (c.toNat + 32)] ∨ lowerChar c = [c] ∨
      ∃ codes, lowerChar c = codes.map Char.ofNat ∧ codes ≠ [] ∧ ∀ code ∈ codes, 105 ≤ code := by
  by_cases hascii : c.toNat < 128
  · cases hupper : isAsciiUpper c with
    | true => exact Or.inl ⟨rfl, lowerChar_of_upper hupper⟩
    | false => exact Or.inr (Or.inl (lowerChar_of_ascii hascii hupper))
  · exact Or.inr (lowerChar_beyond hascii)

theorem lowerChar_mark (hmark : IsMark mark) : lowerChar mark = [mark] := by
  obtain ⟨-, hbelow, hupper⟩ := hmark
  exact lowerChar_of_ascii (by omega) hupper

/-- Lowering a character other than a mark gives some characters, and the mark is not among them. -/
theorem lowerChar_of_ne (hmark : IsMark mark) (h : c ≠ mark) :
    lowerChar c ≠ [] ∧ mark ∉ lowerChar c := by
  obtain ⟨hpos, hbelow, -⟩ := hmark
  rcases lowerChar_cases c with ⟨hupper, hlower⟩ | hself | ⟨codes, hcodes, hne, habove⟩
  · have hrange := toNat_of_upper hupper
    rw [hlower, List.mem_singleton]
    exact ⟨List.cons_ne_nil _ _, (ofNat_ne_of_lt hpos (by omega)).symm⟩
  · rw [hself, List.mem_singleton]
    exact ⟨List.cons_ne_nil _ _, h.symm⟩
  · rw [hcodes, List.mem_map]
    refine ⟨by simpa using hne, ?_⟩
    rintro ⟨code, hmem, hsame⟩
    have hcode := habove code hmem
    exact ofNat_ne_of_lt hpos (by omega) hsame

end Text

namespace Identifier

open Text

variable {mark separator : Char}

@[simp] theorem splitWords_nil (before : Option Char) : splitWords separator before [] = [] := by
  cases before <;> rfl

/-- What stands in front of a character depends on the one before it, and on nothing that follows. -/
theorem splitWords_cons (separator : Char) (before : Option Char) (c : Char) :
    ∃ gap, (gap = [] ∨ gap = [separator]) ∧ (before = none ∨ isAsciiUpper c = false → gap = []) ∧
      ∀ cs, splitWords separator before (c :: cs) = gap ++ lowerChar c ++ splitWords separator (some c) cs := by
  cases before with
  | none => exact ⟨[], Or.inl rfl, (fun _ => rfl), fun _ => rfl⟩
  | some before =>
    by_cases hboundary : isBoundary before c = true
    · refine ⟨[separator], Or.inr rfl, fun h => ?_, fun cs => by rw [splitWords, if_pos hboundary]⟩
      rw [isBoundary, Bool.and_eq_true] at hboundary
      simp [hboundary.2] at h
    · exact ⟨[], Or.inl rfl, (fun _ => rfl), fun cs => by rw [splitWords, if_neg hboundary]⟩

theorem mark_mem_splitWords (hmark : IsMark mark) (hseparator : mark ≠ separator)
    (before : Option Char) (cs : List Char) :
    mark ∈ splitWords separator before cs ↔ mark ∈ cs := by
  induction cs generalizing before with
  | nil => rw [splitWords_nil]
  | cons c cs ih =>
    obtain ⟨gap, hgap, -, hwords⟩ := splitWords_cons separator before c
    have hnone : mark ∉ gap := by
      rcases hgap with rfl | rfl
      · simp
      · simpa using hseparator
    rw [hwords, List.mem_append, List.mem_append, ih, List.mem_cons]
    by_cases hc : c = mark
    · simp [hc, lowerChar_mark hmark]
    · have hlower := (lowerChar_of_ne hmark hc).2
      simp [hnone, hlower, Ne.symm hc]

theorem head?_kebab {name : String} :
    (kebab name).toList.head? = some '/' ↔ name.toList.head? = some '/' := by
  have hmark : IsMark '/' := by decide
  unfold kebab
  rw [String.toList_ofList]
  cases name.toList with
  | nil => rw [splitWords_nil]
  | cons c cs =>
    obtain ⟨gap, -, hgap, hwords⟩ := splitWords_cons '-' none c
    rw [hwords, hgap (Or.inl rfl), List.nil_append, List.head?_cons]
    by_cases hc : c = '/'
    · simp [hc, lowerChar_mark hmark]
    · obtain ⟨hne, hnone⟩ := lowerChar_of_ne hmark hc
      obtain ⟨first, rest, hlower⟩ := List.exists_cons_of_ne_nil hne
      have hfirst : first ≠ '/' := by
        rintro rfl
        exact hnone (by rw [hlower]; exact List.mem_cons_self)
      simp [hlower, hc, hfirst]

/-- Nothing that stands before a slash has a say in what becomes of the rest. -/
theorem splitWords_slash (before : Option Char) (s t : List Char) :
    splitWords separator before (s ++ '/' :: t) =
      splitWords separator before s ++ '/' :: splitWords separator none t := by
  induction s generalizing before with
  | nil =>
    obtain ⟨gap, -, hgap, hwords⟩ := splitWords_cons separator before '/'
    have hrest : splitWords separator (some '/') t = splitWords separator none t := by
      cases t with
      | nil => rfl
      | cons c cs => rfl
    rw [List.nil_append, hwords, hgap (Or.inr (by decide)), lowerChar_mark (by decide), hrest, splitWords_nil]
    rfl
  | cons c cs ih =>
    obtain ⟨gap, -, -, hwords⟩ := splitWords_cons separator before c
    simp only [List.cons_append, hwords, ih, List.append_assoc]

theorem splitSlash_splitWords (hseparator : '/' ≠ separator) {parts : List (List Char)}
    (hne : parts ≠ []) (h : ∀ part ∈ parts, '/' ∉ part) :
    splitSlash (splitWords separator none (joinSlash parts)) =
      parts.map (splitWords separator none) := by
  have hplain (part : List Char) (hpart : '/' ∉ part) : '/' ∉ splitWords separator none part := by
    rwa [mark_mem_splitWords (by decide) hseparator]
  induction parts with
  | nil => exact absurd rfl hne
  | cons part parts ih =>
    obtain ⟨hpart, hparts⟩ := List.forall_mem_cons.1 h
    cases parts with
    | nil => exact splitSlash_of_not_mem (hplain part hpart)
    | cons next rest =>
      rw [joinSlash, splitWords_slash, splitSlash_append (hplain part hpart),
        ih (List.cons_ne_nil next rest) hparts]
      · rfl
      · exact List.cons_ne_nil next rest

/-- The parts of a name go over into the parts of its kebab case. -/
theorem parts_kebab (name : String) : (Path.mk (kebab name)).parts = (Path.mk name).parts.map kebab := by
  have hplain : ∀ part ∈ splitSlash name.toList, '/' ∉ part :=
    fun part hpart => not_mem_of_mem_splitSlash hpart
  have hparts := splitSlash_splitWords (by decide : '/' ≠ '-') (splitSlash_ne_nil name.toList) hplain
  rw [joinSlash_splitSlash] at hparts
  simp only [Path.parts, kebab, String.toList_ofList, hparts, List.map_map]
  apply List.map_congr_left
  intro part _
  simp [kebab]

/-- Marks alone stay what they are, and only they become marks alone. -/
theorem splitWords_eq_of_marks (hmark : IsMark mark) (hseparator : mark ≠ separator)
    {before : Option Char} {cs : List Char}
    (h : (∀ c ∈ cs, c = mark) ∨ ∀ c ∈ splitWords separator before cs, c = mark) :
    splitWords separator before cs = cs := by
  induction cs generalizing before with
  | nil => exact splitWords_nil before
  | cons c cs ih =>
    obtain ⟨gap, hgap, hnone, hwords⟩ := splitWords_cons separator before c
    have hfirst : c = mark := by
      rcases h with h | h
      · exact h c List.mem_cons_self
      · by_contra hc
        obtain ⟨hne, hlower⟩ := lowerChar_of_ne hmark hc
        obtain ⟨first, rest, hchars⟩ := List.exists_cons_of_ne_nil hne
        have hmem : first ∈ lowerChar c := by rw [hchars]; exact List.mem_cons_self
        obtain rfl := h first (by rw [hwords]; simp [hmem])
        exact hlower hmem
    have hgap : gap = [] := hnone (Or.inr (by rw [hfirst]; exact hmark.2.2))
    have hrest : splitWords separator (some c) cs = cs := by
      apply ih
      rcases h with h | h
      · exact Or.inl fun d hd => h d (List.mem_cons_of_mem c hd)
      · exact Or.inr fun d hd => h d (by rw [hwords]; simp [hd])
    rw [hwords, hgap, hfirst, lowerChar_mark hmark, ← hfirst, hrest]
    rfl

/-- So dots come from dots alone. -/
theorem kebab_eq_iff_of_dots {name dots : String} (hdots : ∀ c ∈ dots.toList, c = '.') :
    kebab name = dots ↔ name = dots := by
  have hmark : IsMark '.' := by decide
  constructor
  · intro h
    have hwords : splitWords '-' none name.toList = dots.toList := by
      rw [← h, kebab, String.toList_ofList]
    have hsame : splitWords '-' none name.toList = name.toList :=
      splitWords_eq_of_marks hmark (by decide) (Or.inr (by rwa [hwords]))
    rw [← String.toList_inj, ← hsame, hwords]
  · rintro rfl
    rw [kebab, splitWords_eq_of_marks hmark (by decide) (Or.inl hdots), String.ofList_toList]

theorem kebab_eq_up_iff {name : String} : kebab name = ".." ↔ name = ".." :=
  kebab_eq_iff_of_dots (by simp)

/-- The kebab case of a part names a place if the part does. -/
theorem isName_kebab {name : String} : IsName (kebab name) ↔ IsName name := by
  have hempty : kebab name = "" ↔ name = "" := kebab_eq_iff_of_dots (by simp)
  have hhere : kebab name = "." ↔ name = "." := kebab_eq_iff_of_dots (by simp)
  constructor
  · rintro ⟨hname, hnotHere, hup⟩
    exact ⟨mt hempty.2 hname, mt hhere.2 hnotHere, mt kebab_eq_up_iff.2 hup⟩
  · rintro ⟨hname, hnotHere, hup⟩
    exact ⟨mt hempty.1 hname, mt hhere.1 hnotHere, mt kebab_eq_up_iff.1 hup⟩

/-- A plural is what is left of the word when some letters are taken from its end, with others put in their
place. -/
theorem pluralChars_eq (cs : List Char) :
    ∃ stem ending letters, cs = stem ++ ending ∧ pluralChars cs = stem ++ letters ++ ['s'] ∧
      ∀ letter ∈ ending ++ letters ++ ['s'], 97 ≤ letter.toNat := by
  unfold pluralChars
  split
  · exact ⟨cs, [], ['e'], by simp, by simp, by simp⟩
  · exact ⟨cs, [], [], by simp, by simp, by simp⟩
  · next stem _ hreverse =>
    refine ⟨stem.reverse, ['y'], ['i', 'e'], ?_, by simp, by simp⟩
    rw [← List.reverse_inj, hreverse]
    simp
  · exact ⟨cs, [], [], by simp, by simp, by simp⟩

theorem not_mem_of_letters (hmark : IsMark mark) {letters : List Char}
    (h : ∀ letter ∈ letters, 97 ≤ letter.toNat) : mark ∉ letters := by
  intro hmem
  exact absurd (h mark hmem) (Nat.not_le.2 hmark.2.1)

theorem mark_mem_pluralChars (hmark : IsMark mark) {cs : List Char} :
    mark ∈ pluralChars cs ↔ mark ∈ cs := by
  obtain ⟨stem, ending, letters, hcs, hplural, hletters⟩ := pluralChars_eq cs
  have hnone := not_mem_of_letters hmark hletters
  simp only [List.mem_append, not_or] at hnone
  rw [hplural, hcs]
  simp [hnone]

theorem head?_pluralChars {cs : List Char} :
    (pluralChars cs).head? = some '/' ↔ cs.head? = some '/' := by
  obtain ⟨stem, ending, letters, hcs, hplural, hletters⟩ := pluralChars_eq cs
  have hnone := not_mem_of_letters (by decide : IsMark '/') hletters
  rw [hplural, hcs]
  cases stem with
  | cons c rest => simp
  | nil =>
    have hword : ending.head? ≠ some '/' := by
      intro h
      exact hnone (by simp [List.mem_of_head? h])
    have hletter : (letters ++ ['s']).head? ≠ some '/' := by
      intro h
      exact hnone (by rw [List.append_assoc]; exact List.mem_append_right _ (List.mem_of_head? h))
    exact iff_of_false hletter hword

theorem getLast?_pluralChars (cs : List Char) : (pluralChars cs).getLast? = some 's' := by
  obtain ⟨stem, ending, letters, -, hplural, -⟩ := pluralChars_eq cs
  rw [hplural, List.getLast?_concat]

theorem getLast?_plural (name : String) : (plural name).toList.getLast? = some 's' := by
  rw [plural, String.toList_ofList, getLast?_pluralChars]

/-- A plural differs in the last part alone. -/
theorem dropLast_parts_plural (name : String) :
    (Path.mk (plural name)).parts.dropLast = (Path.mk name).parts.dropLast := by
  obtain ⟨stem, ending, letters, hcs, hplural, hletters⟩ := pluralChars_eq name.toList
  have hnone := not_mem_of_letters (by decide : IsMark '/') hletters
  have hending : '/' ∉ ending := fun h => hnone (by simp [h])
  have hletters : '/' ∉ letters ++ ['s'] := by
    intro h
    exact hnone (by rw [List.append_assoc]; exact List.mem_append_right _ h)
  obtain ⟨above, last, hstem⟩ : ∃ above last, splitSlash stem = above ++ [last] :=
    ⟨_, _, (List.dropLast_append_getLast (splitSlash_ne_nil stem)).symm⟩
  rw [List.append_assoc] at hplural
  rw [Path.parts, Path.parts, plural, String.toList_ofList, hplural, hcs,
    splitSlash_append_of_not_mem hstem hletters, splitSlash_append_of_not_mem hstem hending]
  simp

/-- What a name begins with, it begins with in separate words as well. -/
theorem splitWords_prefix {separator : Char} (before : Option Char) {s t : List Char} (h : s <+: t) :
    splitWords separator before s <+: splitWords separator before t := by
  induction s generalizing before t with
  | nil =>
    rw [splitWords_nil]
    exact List.nil_prefix
  | cons c cs ih =>
    obtain ⟨rest, rfl⟩ := h
    obtain ⟨gap, -, -, hwords⟩ := splitWords_cons separator before c
    rw [List.cons_append, hwords, hwords]
    exact (List.prefix_append_right_inj _).2 (ih (some c) (List.prefix_append cs rest))

theorem length_screamingSnake_le {name other : String} (h : name.toList <+: other.toList) :
    (screamingSnake name).length ≤ (screamingSnake other).length := by
  have hsnake : (snake name).toList <+: (snake other).toList := by
    rw [snake, snake, String.toList_ofList, String.toList_ofList]
    exact splitWords_prefix none h
  obtain ⟨rest, hrest⟩ := hsnake
  rw [screamingSnake, screamingSnake, String.length_ofList, String.length_ofList, ← hrest, upper_append,
    List.length_append]
  exact Nat.le_add_right _ _

/-- A plural is longer by a letter or two. -/
theorem length_plural (name : String) :
    name.length + 1 ≤ (plural name).length ∧ (plural name).length ≤ name.length + 2 := by
  rw [plural, String.length_ofList, ← String.length_toList]
  unfold pluralChars
  split
  · simp
  · simp
  · next stem _ hreverse =>
    have hlength := congrArg List.length hreverse
    simp only [List.length_reverse, List.length_cons] at hlength
    simp only [List.length_append, List.length_reverse, List.length_cons, List.length_nil]
    omega
  · simp

end Identifier

namespace Names

open Identifier Text

theorem toList_kebabPlural (model : String) :
    (ofModel model).kebabPlural.toList = pluralChars (kebab model).toList := by
  simp only [ofModel, Identifier.plural, String.toList_ofList]

theorem mark_mem_kebabPlural {mark : Char} (hmark : IsMark mark) (hseparator : mark ≠ '-')
    {model : String} : mark ∈ (ofModel model).kebabPlural.toList ↔ mark ∈ model.toList := by
  rw [toList_kebabPlural, mark_mem_pluralChars hmark, kebab, String.toList_ofList,
    mark_mem_splitWords hmark hseparator]

theorem head?_kebabPlural {model : String} :
    (ofModel model).kebabPlural.toList.head? = some '/' ↔ model.toList.head? = some '/' := by
  rw [toList_kebabPlural, head?_pluralChars, head?_kebab]

theorem getLast?_kebabPlural (model : String) :
    (ofModel model).kebabPlural.toList.getLast? = some 's' := by
  rw [toList_kebabPlural, getLast?_pluralChars]

/-- What comes before the last part of a model's directory comes from the parts of the name. -/
theorem dropLast_parts_kebabPlural (model : String) :
    (Path.mk (ofModel model).kebabPlural).parts.dropLast = (Path.mk model).parts.dropLast.map kebab := by
  rw [ofModel, dropLast_parts_plural, parts_kebab, List.map_dropLast]

/-- The directory of a model steps up where the name of the model does, its last part apart. -/
theorem up_mem_kebabPlural {model : String} :
    ".." ∈ (Path.mk (ofModel model).kebabPlural).parts.dropLast ↔
      ".." ∈ (Path.mk model).parts.dropLast := by
  rw [dropLast_parts_kebabPlural, List.mem_map]
  simp only [kebab_eq_up_iff, exists_eq_right]

theorem isName_of_mem_kebabPlural {model : String} :
    (∀ part ∈ (Path.mk (ofModel model).kebabPlural).parts.dropLast, IsName part) ↔
      ∀ part ∈ (Path.mk model).parts.dropLast, IsName part := by
  rw [dropLast_parts_kebabPlural, List.forall_mem_map]
  simp only [isName_kebab]

end Names

end EntityForge
