import EntityForge.Proofs.Json.Lexeme
import EntityForge.Proofs.Json.Records
import EntityForge.Proofs.Json.Source

/-!
Integers as a text spells them.

A numeral of a text has no zero that it does not need, so that one without a point and a power is spelled as its
integer is printed, unless it is a zero with a sign. A tree has the lexemes of all its parts, and so this holds of
every numeral that a record is read from. Main statements: `isPlain_of_mem_lex`, `eq_ofInt` and
`Record.lexemes_of_mapAt`.
-/

namespace EntityForge.Json

open Text (isAsciiDigit plainDigits)

namespace Numeral

/-- Digits stand before the point, and no zero before other ones. -/
def IsPlain (n : Numeral) : Prop :=
  (∀ c ∈ n.whole, isAsciiDigit c = true) ∧ plainDigits n.whole = n.whole

/-- Neither a point nor a power. -/
def IsIntegral (n : Numeral) : Prop := n.fraction = none ∧ n.power = none

/-- The integer of a numeral that is integral. -/
def integer (n : Numeral) : Int :=
  if n.negative then -(Nat.ofDigitChars 10 n.whole 0) else Nat.ofDigitChars 10 n.whole 0

/-- The characters of a numeral that is integral. -/
def spelled (n : Numeral) : List Char := (if n.negative then ['-'] else []) ++ n.whole

/-- A zero with a sign. -/
def IsMinusZero (n : Numeral) : Prop := n.negative = true ∧ n.integer = 0

theorem spelled_ofInt (value : Int) : String.ofList (ofInt value).spelled = toString value := by
  have htext := text_ofInt value
  rw [← String.toList_inj, String.toList_ofList]
  refine Eq.trans ?_ htext.symm
  unfold spelled ofInt
  by_cases hvalue : value < 0 <;> simp [hvalue]

/-- A plain numeral that is integral is what its integer is written as. -/
theorem eq_ofInt {n : Numeral} (hplain : n.IsPlain) (hintegral : n.IsIntegral) (hzero : ¬n.IsMinusZero) :
    n = ofInt n.integer := by
  obtain ⟨negative, whole, fraction, power⟩ := n
  obtain ⟨hdigits, hwhole⟩ := hplain
  obtain ⟨rfl, rfl⟩ := hintegral
  rw [← Text.toDigits_eq_plainDigits hdigits] at hwhole
  unfold IsMinusZero at hzero
  unfold integer at hzero ⊢
  simp only at hzero hwhole ⊢
  generalize Nat.ofDigitChars 10 whole 0 = size at hzero hwhole ⊢
  cases negative with
  | true =>
    have hsize : -(size : Int) < 0 := by
      rw [if_pos rfl] at hzero
      have hnonzero : ¬-(size : Int) = 0 := fun h => hzero ⟨rfl, h⟩
      omega
    rw [if_pos rfl, ofInt, decide_eq_true hsize, Int.natAbs_neg, Int.natAbs_natCast, hwhole]
  | false =>
    have hsize : ¬(size : Int) < 0 := by omega
    rw [if_neg Bool.false_ne_true, ofInt, decide_eq_false hsize, Int.natAbs_natCast, hwhole]

theorem plainDigits_of_ne {first : Char} (h : first ≠ '0') (rest : List Char) :
    plainDigits (first :: rest) = first :: rest := by
  have hkept : (first :: rest).dropWhile (· == '0') = first :: rest := List.dropWhile_cons_of_neg (by simpa using h)
  rw [plainDigits, hkept, if_neg (List.cons_ne_nil first rest)]

namespace Draft

/-- What has been read of a numeral can still become a plain one. -/
structure IsPlain (d : Draft) : Prop where
  digits : ∀ c ∈ d.numeral.whole, isAsciiDigit c = true
  sign : d.spot = .sign → d.numeral.whole = []
  whole : d.spot = .whole → ∃ first rest, d.numeral.whole.reverse = first :: rest ∧ first ≠ '0'
  plain : d.spot ≠ .sign → plainDigits d.numeral.whole.reverse = d.numeral.whole.reverse

variable {d next : Draft} {c : Char}

theorem isPlain_start (negative : Bool) : (start negative).IsPlain :=
  ⟨nofun, fun _ => rfl, nofun, fun h => absurd rfl h⟩

/-- A character is the first digit before the point, or another one, or it changes none of them. -/
theorem push?_cases (h : d.push? c = some next) :
    (d.spot = .sign ∧ isAsciiDigit c = true ∧ next = d.pushWhole (if c == '0' then .zero else .whole) c) ∨
      (d.spot = .whole ∧ isAsciiDigit c = true ∧ next = d.pushWhole .whole c) ∨
      (d.spot ≠ .sign ∧ next.spot ≠ .sign ∧ next.spot ≠ .whole ∧ next.numeral.whole = d.numeral.whole) := by
  obtain ⟨spot, numeral⟩ := d
  cases spot with
  | sign =>
    obtain ⟨hdigit, hnext⟩ := Option.ite_none_right_eq_some.1 h
    exact .inl ⟨rfl, hdigit, (Option.some.inj hnext).symm⟩
  | whole =>
    simp only [push?] at h
    split_ifs at h with hdigit
    · exact .inr (.inl ⟨rfl, hdigit, (Option.some.inj h).symm⟩)
    all_goals
      obtain rfl := Option.some.inj h
      exact .inr (.inr ⟨Spot.noConfusion, Spot.noConfusion, Spot.noConfusion, rfl⟩)
  | zero | point | fraction | powerMark | powerSign | power =>
    simp only [push?] at h
    split_ifs at h
    all_goals
      obtain rfl := Option.some.inj h
      exact .inr (.inr ⟨Spot.noConfusion, Spot.noConfusion, Spot.noConfusion, rfl⟩)

theorem IsPlain.push (h : d.IsPlain) (hpush : d.push? c = some next) : next.IsPlain := by
  rcases push?_cases hpush with ⟨hspot, hc, rfl⟩ | ⟨hspot, hc, rfl⟩ | ⟨hspot, hsign, hwhole, hsame⟩
  · have hdigits : ∀ digit ∈ (d.pushWhole (if c == '0' then .zero else .whole) c).numeral.whole,
        isAsciiDigit digit = true := List.forall_mem_cons.2 ⟨hc, h.digits⟩
    have hreverse : (d.pushWhole (if c == '0' then .zero else .whole) c).numeral.whole.reverse = [c] := by
      rw [pushWhole, h.sign hspot, List.reverse_singleton]
    by_cases hzero : c = '0'
    · subst hzero
      exact ⟨hdigits, Spot.noConfusion, Spot.noConfusion, fun _ => hreverse ▸ by decide⟩
    · refine ⟨hdigits, ?_, fun _ => ⟨c, [], hreverse, hzero⟩, fun _ => hreverse ▸ plainDigits_of_ne hzero []⟩
      simp [pushWhole, hzero]
  · obtain ⟨first, rest, hreverse, hfirst⟩ := h.whole hspot
    have hmore : (d.pushWhole .whole c).numeral.whole.reverse = first :: (rest ++ [c]) := by
      rw [pushWhole, List.reverse_cons, hreverse, List.cons_append]
    exact ⟨List.forall_mem_cons.2 ⟨hc, h.digits⟩, Spot.noConfusion, fun _ => ⟨first, _, hmore, hfirst⟩,
      fun _ => hmore ▸ plainDigits_of_ne hfirst _⟩
  · exact ⟨hsame ▸ h.digits, fun hs => absurd hs hsign, fun hw => absurd hw hwhole, fun _ => hsame ▸ h.plain hspot⟩

theorem IsPlain.finish (h : d.IsPlain) (hcomplete : d.isComplete = true) : d.finish.IsPlain := by
  have hspot : d.spot ≠ .sign := by
    intro hsign
    rw [isComplete, hsign] at hcomplete
    cases hcomplete
  exact ⟨fun c hc => h.digits c (List.mem_reverse.1 hc), h.plain hspot⟩

end Draft

end Numeral

/-- A numeral is plain; other lexemes may be what they are. -/
def Token.IsPlain : Token → Prop
  | .numeral n => n.IsPlain
  | _ => True

/-- A numeral that is being read can still become a plain one. -/
def Scan.IsPlain : Scan → Prop
  | .numeral d => d.IsPlain
  | _ => True

theorem Scan.isPlain_start (c : Char) :
    (∀ token ∈ (Scan.start c).1, token.IsPlain) ∧ (Scan.start c).2.IsPlain := by
  have hmark (m : Mark) : ∀ token ∈ [Token.mark m], token.IsPlain := List.forall_mem_singleton.2 trivial
  unfold Scan.start
  split
  · exact ⟨nofun, trivial⟩
  · split
    case h_8 => exact ⟨nofun, Numeral.Draft.isPlain_start true⟩
    case h_12 =>
      split
      · next d hpush => exact ⟨nofun, (Numeral.Draft.isPlain_start false).push hpush⟩
      · exact ⟨List.forall_mem_singleton.2 trivial, trivial⟩
    all_goals first | exact ⟨hmark _, trivial⟩ | exact ⟨nofun, trivial⟩

theorem isPlain_tokens {scan : Scan} (h : scan.IsPlain) (cs : List Char) :
    ∀ token ∈ tokens scan cs, token.IsPlain := by
  have hstart (c : Char) (rest : List Token) (hrest : ∀ token ∈ rest, token.IsPlain) :
      ∀ token ∈ (Scan.start c).1 ++ rest, token.IsPlain :=
    List.forall_mem_append.2 ⟨(Scan.isPlain_start c).1, hrest⟩
  fun_induction tokens scan cs with
  | case1 => exact nofun
  | case2 c cs ih => exact hstart c _ (ih (Scan.isPlain_start c).2)
  | case5 w c cs ih => exact List.forall_mem_cons.2 ⟨trivial, hstart c _ (ih (Scan.isPlain_start c).2)⟩
  | case8 d hcomplete => exact List.forall_mem_singleton.2 (h.finish hcomplete)
  | case10 d c cs next hpush ih => exact ih (h.push hpush)
  | case11 d c cs hpush hend ih =>
    have hcomplete : d.isComplete = true := (Bool.and_eq_true_iff.1 hend).1
    exact List.forall_mem_cons.2 ⟨h.finish hcomplete, hstart c _ (ih (Scan.isPlain_start c).2)⟩
  -- inside of a word or a string there is no numeral, and neither is a torn lexeme one
  | case14 _ _ ih => exact List.forall_mem_cons.2 ⟨trivial, ih trivial⟩
  | case6 | case16 | case19 | case22 => next ih => exact ih trivial
  | _ => exact List.forall_mem_singleton.2 trivial

/-- Every numeral of a text is plain. -/
theorem isPlain_of_mem_lex {text : String} {n : Numeral} (h : .numeral n ∈ lex text) : n.IsPlain := by
  have hidle : Scan.idle.IsPlain := trivial
  exact isPlain_tokens hidle text.toList _ h

/-! A tree has the lexemes of its parts. -/

theorem mem_intercalate (separator : List Token) {parts : List (List Token)} {part : List Token}
    (hpart : part ∈ parts) {token : Token} (htoken : token ∈ part) : token ∈ separator.intercalate parts := by
  induction parts with
  | nil => cases hpart
  | cons first parts ih =>
    cases parts with
    | nil =>
      obtain rfl := List.mem_singleton.1 hpart
      rwa [List.intercalate_singleton]
    | cons next rest =>
      rw [List.intercalate_cons_cons, List.append_assoc]
      rcases List.mem_cons.1 hpart with rfl | hpart
      · exact List.mem_append_left _ htoken
      · exact List.mem_append_right _ (List.mem_append_right _ (ih hpart))

namespace Node

theorem lexemes_of_items {items : List Node} {item : Node} (h : item ∈ items) (tear : Option Tear) :
    item.lexemes ⊆ (Node.array items tear).lexemes := by
  intro token htoken
  have hpart : item.lexemes ∈ itemLexemes items := itemLexemes_eq items ▸ List.mem_map_of_mem h
  exact List.mem_cons_of_mem _ (List.mem_append_left _ (mem_intercalate _ hpart htoken))

theorem lexemes_of_members {node : Node} {entry : String × Node} (h : entry ∈ node.members) :
    entry.2.lexemes ⊆ node.lexemes := by
  cases node with
  | object members tear =>
    obtain ⟨⟨key, value⟩, hmember, hentry⟩ := List.mem_filterMap.1 h
    have hvalue : value = entry.2 := by
      cases hkey : key.read with
      | ok name =>
        simp only [hkey] at hentry
        exact congrArg Prod.snd (Option.some.inj hentry)
      | error fault =>
        simp only [hkey] at hentry
        cases hentry
    intro token htoken
    have hpart : .quoted key :: .mark .colon :: value.lexemes ∈ memberLexemes members :=
      memberLexemes_eq members ▸ List.mem_map_of_mem hmember
    refine List.mem_cons_of_mem _ (List.mem_append_left _ (mem_intercalate _ hpart ?_))
    exact List.mem_cons_of_mem _ (List.mem_cons_of_mem _ (hvalue ▸ htoken))
  | _ => cases h

end Node

namespace Record

variable {α : Type} {r : Record α} {node part : Node} {key : String}

theorem lexemes_of_part? (h : r.part? node key = some part) : part.lexemes ⊆ node.lexemes := by
  have hentry : (key, part) ∈ r.parts node := Entries.mem_of_get? h
  unfold parts at hentry
  split at hentry
  · exact Node.lexemes_of_items (List.of_mem_zip hentry).2 _
  · exact Node.lexemes_of_members hentry

theorem lexemes_of_mapAt {entry : String × Node} (h : entry ∈ r.mapAt node key) :
    entry.2.lexemes ⊆ node.lexemes := by
  unfold mapAt at h
  cases hpart : r.part? node key with
  | none =>
    rw [hpart] at h
    cases h
  | some part =>
    rw [hpart] at h
    intro token htoken
    exact lexemes_of_part? hpart (Node.lexemes_of_members h htoken)

end Record

end EntityForge.Json
