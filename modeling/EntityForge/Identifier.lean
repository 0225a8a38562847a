import EntityForge.Text.Casing

/-!
Identifiers in the spellings the generated files use.

Every path, token and symbol that is written derives from a model name through these functions, so
two files agree on a name exactly when both derive it the same way.
-/

namespace EntityForge

namespace Identifier

open Text

/-- A word begins at an ASCII capital that follows an ASCII small letter or digit. -/
def isBoundary (before c : Char) : Bool :=
  (isAsciiLower before || isAsciiDigit before) && isAsciiUpper c

/-- Lowers every character, with `separator` written where a word begins. -/
def splitWords (separator : Char) : Option Char → List Char → List Char
  | _, [] => []
  | none, c :: cs => lowerChar c ++ splitWords separator (some c) cs
  | some before, c :: cs =>
    (if isBoundary before c then [separator] else []) ++ lowerChar c
      ++ splitWords separator (some c) cs

def kebab (s : String) : String := String.ofList (splitWords '-' none s.toList)

def snake (s : String) : String := String.ofList (splitWords '_' none s.toList)

def screamingSnake (s : String) : String := String.ofList (upper (snake s).toList)

/-- The name a value is bound to: only the first character is lowered. -/
def binding (s : String) : String := String.ofList (mapFirst lowerChar s.toList)

/-- Words as in a sentence: underscores are spaces, and the first character is a capital. -/
def sentence (s : String) : String :=
  String.ofList (mapFirst upperChar (s.toList.map fun c => if c == '_' then ' ' else c))

/-- The plural, by the ending alone. -/
def pluralChars (cs : List Char) : List Char :=
  match cs.reverse with
  | 's' :: _ => cs ++ ['e', 's']
  | 'y' :: 'e' :: _ => cs ++ ['s']
  | 'y' :: stem => stem.reverse ++ ['i', 'e', 's']
  | _ => cs ++ ['s']

def plural (s : String) : String := String.ofList (pluralChars s.toList)

end Identifier

/-- The names that one model goes by. -/
structure Names where
  model : String
  plural : String
  binding : String
  kebabPlural : String
  token : String
  deriving Repr, DecidableEq

namespace Names

def ofModel (model : String) : Names where
  model := model
  plural := Identifier.plural model
  binding := Identifier.binding model
  kebabPlural := Identifier.plural (Identifier.kebab model)
  token := Identifier.screamingSnake model ++ "_REPO_INJECT_TOKEN"

/-- The name under which a table is bound. -/
def tableBinding (names : Names) : String := Identifier.binding names.plural

end Names

end EntityForge
