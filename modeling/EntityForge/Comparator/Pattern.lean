import EntityForge.Comparator

/-!
Regular expressions, as far as one is needed that admits the texts of comparisons.

A pattern has a text, which generated code holds, and a meaning: the stretches of a text that it takes.
-/

namespace EntityForge

inductive Pattern where
  /-- The place before the first character of the whole text. -/
  | start
  /-- The place after its last character. -/
  | stop
  | literal (text : String)
  /-- At least one decimal digit. -/
  | digits
  | seq (first second : Pattern)
  | either (left right : Pattern)
  | group (inner : Pattern)
  /-- Any number of times, also none. -/
  | repeated (inner : Pattern)
  deriving Repr, DecidableEq

namespace Pattern

open Text (isAsciiDigit)

def text : Pattern → String
  | start => "^"
  | stop => "$"
  | literal text => text
  | digits => "\\d+"
  | seq first second => first.text ++ second.text
  | either left right => left.text ++ "|" ++ right.text
  | group inner => "(" ++ inner.text ++ ")"
  | repeated inner => inner.text ++ "*"

/-- The pattern takes `taken`, where `before` and `after` are what stands around it. -/
inductive Takes : Pattern → (before taken after : List Char) → Prop where
  | start (after : List Char) : Takes start [] [] after
  | stop (before : List Char) : Takes stop before [] []
  | literal (text : String) (before after : List Char) :
      Takes (literal text) before text.toList after
  | digits {taken : List Char} (before after : List Char) (notEmpty : taken ≠ [])
      (allDigits : ∀ c ∈ taken, isAsciiDigit c = true) : Takes digits before taken after
  | seq {p q : Pattern} {before a b after : List Char} (first : Takes p before a (b ++ after))
      (second : Takes q (before ++ a) b after) : Takes (seq p q) before (a ++ b) after
  | left {p : Pattern} {before a after : List Char} (q : Pattern) (h : Takes p before a after) :
      Takes (either p q) before a after
  | right {q : Pattern} {before a after : List Char} (p : Pattern) (h : Takes q before a after) :
      Takes (either p q) before a after
  | group {p : Pattern} {before a after : List Char} (h : Takes p before a after) :
      Takes (group p) before a after
  | never (p : Pattern) (before after : List Char) : Takes (repeated p) before [] after
  | more {p : Pattern} {before a b after : List Char} (first : Takes p before a (b ++ after))
      (rest : Takes (repeated p) (before ++ a) b after) : Takes (repeated p) before (a ++ b) after

/-- A pattern accepts a text if it takes some stretch of it. -/
def Accepts (p : Pattern) (s : List Char) : Prop :=
  ∃ before taken after, s = before ++ taken ++ after ∧ Takes p before taken after

def sequence : List Pattern → Pattern
  | [] => literal ""
  | [p] => p
  | p :: ps => seq p (sequence ps)

def choice : List Pattern → Pattern
  | [] => literal ""
  | [p] => p
  | p :: ps => either p (choice ps)

end Pattern

namespace Arity

open Pattern

/-- The operands of as many as the arity says. -/
def operandPattern : Arity → Pattern
  | .one => digits
  | .two => sequence [digits, literal ",", digits]
  | .many => seq digits (repeated (group (seq (literal ",") digits)))

/-- The whole of a comparison by an operator of the arity. -/
def pattern (arity : Arity) : Pattern :=
  let names := (Comparator.all.filter fun c => c.arity == arity).map Comparator.name
  sequence [start, group (choice (names.map literal)), literal "<", group arity.operandPattern,
    literal ">", stop]

end Arity

/-- The comparisons of every arity. -/
def comparatorPattern : Pattern :=
  .group (.choice [Arity.one.pattern, Arity.two.pattern, Arity.many.pattern])

/-- A pattern as a literal of generated code. -/
def Pattern.literalText (p : Pattern) : String := "/" ++ p.text ++ "/"

end EntityForge
