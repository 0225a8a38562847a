import EntityForge.Json.Printer
import EntityForge.Json.Reader
import EntityForge.Proofs.Numerals
import EntityForge.Proofs.Refusal
import Mathlib.Tactic.Common

/-!
Lexemes as they are printed, and what the lexer and the readers make of them.

A quoted text ends where it says so, and so does a word, but a numeral ends only where something stands
that it could not go on with. Main statements: `tokens_quote`, `read_quotedOf`, `tokens_integer` and
`read_ofInt`.
-/

namespace EntityForge.Json

open Text (isAsciiDigit hexDigit)

/-- The control characters that are escaped by a letter of their own. -/
def hasLetter (c : Char) : Bool := ['\x08', '\x0c', '\n', '\r', '\t'].contains c

/-- What the lexer makes of the escape of a character. -/
def pieceOf (c : Char) : Piece :=
  if c.toNat < 32 ∧ hasLetter c = false then .unit c.toNat else .char c

def quotedOf (text : String) : Quoted := ⟨text.toList.map pieceOf, none⟩

theorem hexValue?_hexDigit : ∀ n < 16, hexValue? (hexDigit n) = some n := by decide

theorem fourHex?_small {n : Nat} (h : n < 32) :
    fourHex? '0' '0' (hexDigit (n / 16)) (hexDigit (n % 16)) = some n := by
  have hzero : hexValue? '0' = some 0 := by decide
  have hhigh := hexValue?_hexDigit (n / 16) (by omega)
  have hlow := hexValue?_hexDigit (n % 16) (by omega)
  simp only [fourHex?, hzero, hhigh, hlow, Option.bind_eq_bind, Option.bind_some]
  simp
  omega

/-! What the lexer does with one character more, for each case that a printed lexeme comes to. -/

theorem tokens_idle_cons (c : Char) (cs : List Char) :
    tokens .idle (c :: cs) = (Scan.start c).1 ++ tokens (Scan.start c).2 cs := rfl

theorem tokens_numeral_nil (d : Numeral.Draft) : tokens (.numeral d) [] =
    if d.isComplete then [.numeral d.finish] else [.torn ⟨.cutShort, .malformed⟩] := rfl

theorem tokens_numeral_of_push? {d next : Numeral.Draft} {c : Char} (h : d.push? c = some next)
    (cs : List Char) : tokens (.numeral d) (c :: cs) = tokens (.numeral next) cs := by
  simp only [tokens, h]

theorem tokens_numeral_of_mayEndBefore {d : Numeral.Draft} {c : Char} (h : d.push? c = none)
    (hend : d.mayEndBefore c = true) (cs : List Char) :
    tokens (.numeral d) (c :: cs) = .numeral d.finish :: tokens .idle (c :: cs) := by
  simp only [tokens, h, hend, if_true]

theorem tokens_quoted_end (pieces : List Piece) (cs : List Char) : tokens (.quoted pieces) ('"' :: cs) =
    .quoted ⟨pieces.reverse, none⟩ :: tokens .idle cs := rfl

theorem tokens_quoted_unit {a b c d : Char} {bits : Nat} (h : fourHex? a b c d = some bits)
    (pieces : List Piece) (cs : List Char) :
    tokens (.quoted pieces) ('\\' :: 'u' :: a :: b :: c :: d :: cs) =
      tokens (.quoted (.unit bits :: pieces)) cs := by
  simp only [tokens, h]

theorem tokens_escape (c : Char) (pieces : List Piece) (rest : List Char) :
    tokens (.quoted pieces) (escape c ++ rest) = tokens (.quoted (pieceOf c :: pieces)) rest := by
  unfold escape
  split
  · rfl
  · rfl
  · rfl
  · rfl
  · rfl
  · rfl
  · rfl
  · next hquote hslash hb hf hn hr ht =>
    split
    · next hcontrol =>
      have hplain : hasLetter c = false := by
        simp only [hasLetter, List.contains_eq_mem, decide_eq_false_iff_not, List.mem_cons,
          List.not_mem_nil, or_false, not_or]
        exact ⟨hb, hf, hn, hr, ht⟩
      have hpiece : pieceOf c = .unit c.toNat := by
        rw [pieceOf, if_pos ⟨hcontrol, hplain⟩]
      rw [hpiece]
      exact tokens_quoted_unit (fourHex?_small hcontrol) pieces rest
    · next hcontrol =>
      have hpiece : pieceOf c = .char c := by
        rw [pieceOf, if_neg fun h => hcontrol h.1]
      rw [hpiece, List.cons_append, List.nil_append, tokens, if_neg hcontrol]
      · exact hquote
      · exact fun h _ => hslash h
      · exact fun _ _ _ _ _ h _ => hslash h
      · exact fun _ h _ => hslash h
      · exact fun _ _ h _ => hslash h

theorem tokens_escapes (text : List Char) (pieces : List Piece) (rest : List Char) :
    tokens (.quoted pieces) (text.flatMap escape ++ rest) =
      tokens (.quoted ((text.map pieceOf).reverse ++ pieces)) rest := by
  induction text generalizing pieces with
  | nil => rfl
  | cons c text ih =>
    rw [List.flatMap_cons, List.append_assoc, tokens_escape, ih]
    simp

/-- A quoted text is read up to its end, whatever follows. -/
theorem tokens_quote (text : String) (rest : List Char) :
    tokens .idle (quote text ++ rest) = .quoted (quotedOf text) :: tokens .idle rest := by
  have hstart : Scan.start '"' = ([], .quoted []) := by decide
  rw [quote, List.cons_append, tokens_idle_cons, hstart, List.append_assoc, tokens_escapes]
  simp [tokens_quoted_end, quotedOf]

/-- Sixteen bits that are no half of a pair stand for a character of their own. -/
theorem readPieces_unit {bits : Nat} (hlow : Quoted.isLowSurrogate bits = false)
    (hhigh : Quoted.isHighSurrogate bits = false) (pieces : List Piece) :
    Quoted.readPieces none (.unit bits :: pieces) =
      (do return Char.ofNat bits :: (← Quoted.readPieces none pieces)) := by
  rcases pieces with _ | ⟨c | low, pieces⟩ <;> simp [Quoted.readPieces, hlow, hhigh]

theorem readPieces_pieceOf (text : List Char) :
    Quoted.readPieces none (text.map pieceOf) = .ok text := by
  induction text with
  | nil => rfl
  | cons c text ih =>
    rw [List.map_cons]
    by_cases hcontrol : c.toNat < 32 ∧ hasLetter c = false
    · have hlow : Quoted.isLowSurrogate c.toNat = false := by
        simp [Quoted.isLowSurrogate]
        omega
      have hhigh : Quoted.isHighSurrogate c.toNat = false := by
        simp [Quoted.isHighSurrogate]
        omega
      rw [pieceOf, if_pos hcontrol, readPieces_unit hlow hhigh, ih, Char.ofNat_toNat]
      rfl
    · rw [pieceOf, if_neg hcontrol, Quoted.readPieces, ih]
      rfl

theorem read_quotedOf (text : String) : (quotedOf text).read = .ok text := by
  rw [quotedOf, Quoted.read, readPieces_pieceOf]
  simp [bind, Except.bind, pure, Except.pure]

/-- A text at whose start no numeral goes on. -/
def Ends (rest : List Char) : Prop :=
  ∀ c ∈ rest.head?, isAsciiDigit c = false ∧ c ≠ '.' ∧ Numeral.Draft.isPowerMark c = false

namespace Numeral

theorem tokens_whole {negative : Bool} (digits : List Char) (before : List Char)
    (hdigits : ∀ c ∈ digits, isAsciiDigit c = true) (rest : List Char) :
    tokens (.numeral ⟨.whole, ⟨negative, before, none, none⟩⟩) (digits ++ rest) =
      tokens (.numeral ⟨.whole, ⟨negative, digits.reverse ++ before, none, none⟩⟩) rest := by
  induction digits generalizing before with
  | nil => rfl
  | cons c digits ih =>
    have hc := hdigits c List.mem_cons_self
    have hpush : Draft.push? ⟨.whole, ⟨negative, before, none, none⟩⟩ c =
        some ⟨.whole, ⟨negative, c :: before, none, none⟩⟩ := by
      simp [Draft.push?, hc, Draft.pushWhole]
    rw [List.cons_append, tokens_numeral_of_push? hpush,
      ih _ fun d hd => hdigits d (List.mem_cons_of_mem c hd)]
    simp

theorem tokens_end {draft : Draft} (hspot : draft.spot = .zero ∨ draft.spot = .whole)
    {rest : List Char} (hrest : Ends rest) :
    tokens (.numeral draft) rest = .numeral draft.finish :: tokens .idle rest := by
  have hcomplete : draft.isComplete = true := by
    rcases hspot with h | h <;> simp [Draft.isComplete, h]
  cases rest with
  | nil =>
    rw [tokens_numeral_nil, if_pos hcomplete]
    rfl
  | cons c rest =>
    obtain ⟨hdigit, hpoint, hpower⟩ := hrest c rfl
    have hpush : draft.push? c = none := by
      rcases hspot with h | h <;> simp [Draft.push?, h, hdigit, hpoint, hpower]
    have hend : draft.mayEndBefore c = true := by
      simp [Draft.mayEndBefore, hcomplete, hdigit]
    exact tokens_numeral_of_mayEndBefore hpush hend rest

theorem ofNat_of_isAsciiDigit {c : Char} (h : isAsciiDigit c = true) :
    ∃ n < 10, c = Char.ofNat (48 + n) := by
  obtain ⟨hlow, hhigh⟩ := Text.isAsciiDigit_iff.1 h
  refine ⟨c.toNat - 48, by omega, ?_⟩
  rw [show 48 + (c.toNat - 48) = c.toNat by omega, Char.ofNat_toNat]

theorem start_digit : ∀ n < 10, Scan.start (Char.ofNat (48 + n)) =
    ([], .numeral ⟨if n = 0 then .zero else .whole,
      ⟨false, [Char.ofNat (48 + n)], none, none⟩⟩) := by decide

theorem push?_digit : ∀ n < 10, (Draft.start false).push? (Char.ofNat (48 + n)) =
    some ⟨if n = 0 then .zero else .whole, ⟨false, [Char.ofNat (48 + n)], none, none⟩⟩ := by decide

/-- The digits of a number: a zero comes first only where it is alone. -/
theorem toDigits_eq_cons (n : Nat) : ∃ first rest, Nat.toDigits 10 n = first :: rest ∧
    (∀ c ∈ first :: rest, isAsciiDigit c = true) ∧ (first = '0' → rest = []) := by
  have hall : ∀ c ∈ Nat.toDigits 10 n, isAsciiDigit c = true := fun _ => Text.isAsciiDigit_of_mem_toDigits
  have hplain : Text.plainDigits (Nat.toDigits 10 n) = Nat.toDigits 10 n := by
    rw [← Text.toDigits_eq_plainDigits hall, Nat.ofDigitChars_ten_toDigits]
  obtain ⟨first, rest, hdigits⟩ := List.exists_cons_of_ne_nil (Nat.toDigits_ne_nil )
  rw [hdigits] at hall hplain
  refine ⟨first, rest, hdigits, hall, fun hfirst => ?_⟩
  rw [hfirst] at hplain
  exact Text.eq_nil_of_plainDigits_zero_cons hplain

/-- A whole number as it is written. -/
def ofInt (value : Int) : Numeral := ⟨decide (value < 0), Nat.toDigits 10 value.natAbs, none, none⟩

theorem tokens_digits (negative : Bool) (n : Nat) {rest : List Char} (hrest : Ends rest) :
    tokens (.numeral (Draft.start negative)) (Nat.toDigits 10 n ++ rest) =
      .numeral ⟨negative, Nat.toDigits 10 n, none, none⟩ :: tokens .idle rest := by
  obtain ⟨first, more, hdigits, hall, hzero⟩ := toDigits_eq_cons n
  have hfirst := hall first List.mem_cons_self
  rw [hdigits, List.cons_append]
  by_cases hstart : first = '0'
  · have hpush : (Draft.start negative).push? first =
        some ⟨.zero, ⟨negative, [first], none, none⟩⟩ := by
      simp [Draft.push?, Draft.start, Draft.pushWhole, hstart, isAsciiDigit]
    rw [tokens_numeral_of_push? hpush, hzero hstart]
    exact tokens_end (Or.inl rfl) hrest
  · have hpush : (Draft.start negative).push? first =
        some ⟨.whole, ⟨negative, [first], none, none⟩⟩ := by
      simp [Draft.push?, Draft.start, Draft.pushWhole, hstart, hfirst]
    rw [tokens_numeral_of_push? hpush]
    refine (tokens_whole more [first] (fun c hc => hall c (List.mem_cons_of_mem _ hc)) rest).trans ?_
    rw [tokens_end (Or.inr rfl) hrest]
    simp [Draft.finish]

theorem text_ofInt (value : Int) :
    (Number.int value).text.toList =
      if value < 0 then '-' :: Nat.toDigits 10 value.natAbs else Nat.toDigits 10 value.natAbs := by
  cases value with
  | ofNat n =>
    have htext : (Number.int (.ofNat n)).text = n.repr := rfl
    have hsign : ¬(Int.ofNat n < 0) := by simp
    rw [htext, if_neg hsign, Nat.toList_repr]
    rfl
  | negSucc n =>
    have htext : (Number.int (.negSucc n)).text = "-" ++ (n + 1).repr := rfl
    rw [htext, if_pos (Int.negSucc_lt_zero n), String.toList_append, Nat.toList_repr]
    rfl

theorem tokens_integer (value : Int) {rest : List Char} (hrest : Ends rest) :
    tokens .idle ((Number.int value).text.toList ++ rest) =
      .numeral (ofInt value) :: tokens .idle rest := by
  rw [text_ofInt, ofInt]
  by_cases hnegative : value < 0
  · have hstart : Scan.start '-' = ([], .numeral (Draft.start true)) := by decide
    rw [if_pos hnegative, decide_eq_true hnegative, List.cons_append, tokens_idle_cons, hstart]
    exact tokens_digits true _ hrest
  · rw [if_neg hnegative, decide_eq_false hnegative, ← tokens_digits false _ hrest]
    obtain ⟨first, more, hdigits, hall, -⟩ := toDigits_eq_cons value.natAbs
    obtain ⟨n, hn, hfirst⟩ := ofNat_of_isAsciiDigit (hall first List.mem_cons_self)
    rw [hdigits, List.cons_append, tokens_idle_cons, hfirst, start_digit n hn,
      tokens_numeral_of_push? (push?_digit n hn)]
    rfl

/-- Digits that say a number of 64 bits are all taken. -/
theorem foldl_pushWhole {digits : List Char} {value : Nat}
    (h : Nat.ofDigitChars 10 digits value < UInt64.size) :
    digits.foldl Significand.pushWhole ⟨value, 0⟩ = ⟨Nat.ofDigitChars 10 digits value, 0⟩ := by
  induction digits generalizing value with
  | nil => rfl
  | cons c digits ih =>
    rw [Nat.ofDigitChars_cons] at h ⊢
    have hstep : value * 10 + digit c = 10 * value + (c.toNat - '0'.toNat) := by
      rw [Nat.mul_comm]
      rfl
    have hfits : fits (value * 10 + digit c) = true := by
      have hmore := h
      rw [Nat.ofDigitChars_eq_ofDigitChars_zero] at hmore
      have hpower : 1 ≤ 10 ^ digits.length := Nat.one_le_pow _ _ (by decide)
      have hle := Nat.mul_le_mul_right (10 * value + (c.toNat - '0'.toNat)) hpower
      simp only [fits, decide_eq_true_eq, hstep]
      omega
    rw [List.foldl_cons, Significand.pushWhole]
    simp only [beq_self_eq_true, Bool.true_and, hfits, if_true]
    rw [hstep]
    exact ih h

theorem read_ofInt {value : Int} (hlow : -(UInt64.size / 2 : Nat) ≤ value)
    (hhigh : value < UInt64.size) : (ofInt value).read = .ok (.int value) := by
  have hfits : Nat.ofDigitChars 10 (Nat.toDigits 10 value.natAbs) 0 < UInt64.size := by
    rw [Nat.ofDigitChars_ten_toDigits]
    omega
  have hwhole : (ofInt value).wholeSignificand = ⟨value.natAbs, 0⟩ := by
    rw [wholeSignificand, ofInt, foldl_pushWhole hfits, Nat.ofDigitChars_ten_toDigits]
  have hint : (ofInt value).int? = some value := by
    obtain ⟨size, hsize⟩ : ∃ size, value.natAbs = size := ⟨_, rfl⟩
    unfold int?
    rw [hwhole, hsize]
    by_cases hnegative : value < 0
    · have hpositive : 0 < size ∧ size ≤ UInt64.size / 2 := by omega
      have hvalue : -(size : Int) = value := by omega
      simp [ofInt, hnegative, hpositive, hvalue]
    · have hvalue : (size : Int) = value := by omega
      simp [ofInt, hnegative, hvalue]
  rw [read, value?, hint]

end Numeral

end EntityForge.Json
