import EntityForge.Text.WordTable

/-!
Which texts are patterns that a value can be asked to match.

A pattern is a regular expression without look-around, back references and the classes that need tables
of characters, or it is a number. It is read from left to right, one character at a time, by a machine
that remembers what is open: a text is a pattern when the machine never stops and nothing is open at
the end.
-/

namespace EntityForge.Log.ValuePattern

open Text (isBlank isAlphanumeric)

/-- How the characters that follow are meant. -/
structure Manner where
  /-- Letters stand for both of their cases. -/
  anyCase : Bool
  /-- Characters are meant, not bytes. -/
  wide : Bool
  /-- Blanks, and what follows a number sign, stand for nothing. -/
  spaced : Bool
  deriving Repr, DecidableEq

/-- Case beyond ASCII needs a table of pairs; bytes beyond ASCII are no text. -/
def Manner.allows (manner : Manner) (c : Char) : Bool :=
  if manner.wide then !manner.anyCase else decide (c.toNat < 0x80)

/-- What a single character, or an escape for one, is part of. -/
inductive Place where
  | sequence
  | member
  /-- The end of a range that starts with the character, or with a class, which cannot start one. -/
  | rangeEnd (first : Option Char)
  deriving Repr, DecidableEq

inductive Mode where
  /-- Between two expressions; whether there is one before that an operator can repeat. -/
  | between (repeatable : Bool)
  | comment (repeatable : Bool)
  | groupOpened
  | groupMarked
  | groupNamed
  /-- Within the name of a group. -/
  | name (reversed : List Char)
  | manners (seen : List Char) (off : Bool) (dangling : Bool)
  | classOpened (negatable : Bool)
  /-- Hyphens with which a class starts. -/
  | hyphens
  /-- Between two members: the one before, if it is a character, and whether it stands there as it is.
  Of a class that is a member, only the latter is told. -/
  | members (last : Option Char) (plain : Bool)
  | range (first : Option Char)
  | escape (place : Place)
  | hex (left value : Nat) (place : Place)
  deriving Repr, DecidableEq

structure State where
  mode : Mode
  manner : Manner
  /-- The manners to return to at the ends of the groups that are open. -/
  groups : List Manner
  /-- How many classes are open. -/
  classes : Nat
  names : List (List Char)
  deriving Repr, DecidableEq

namespace State

def start : State := ⟨.between false, ⟨false, true, false⟩, [], 0, []⟩

def enter (s : State) (mode : Mode) : State := { s with mode := mode }

/-- A character, or a class if it is none, has been read for a place. -/
def place (s : State) (c : Option Char) : Place → Option State
  | .sequence => some (s.enter (.between true))
  | .member => some (s.enter (.members c c.isNone))
  | .rangeEnd first =>
    match first, c with
    | some a, some b => if a ≤ b then some (s.enter (.members none false)) else none
    | _, _ => none

def character (s : State) (c : Char) (place : Place) : Option State :=
  if s.manner.allows c then s.place (some c) place else none

def openClass (s : State) : Option State :=
  if s.manner.wide && s.manner.anyCase then none
  else some { s with mode := .classOpened true, classes := s.classes + 1 }

def closeClass (s : State) : State :=
  { s with
    mode := if s.classes = 1 then .between true else .members none false
    classes := s.classes - 1 }

def closeGroup (s : State) : Option State :=
  match s.groups with
  | [] => none
  | manner :: rest => some { s with mode := .between true, manner := manner, groups := rest }

def between (s : State) (repeatable : Bool) (c : Char) : Option State :=
  if s.manner.spaced && isBlank c then some s
  else if s.manner.spaced && c = '#' then some (s.enter (.comment repeatable))
  else
    match c with
    | '(' => some { s with mode := .groupOpened, groups := s.manner :: s.groups }
    | ')' => s.closeGroup
    | '|' => some (s.enter (.between false))
    | '?' | '*' | '+' => if repeatable then some (s.enter (.between true)) else none
    | '\x7b' => none
    | '[' => s.openClass
    | '\\' => some (s.enter (.escape .sequence))
    | '^' | '$' => some (s.enter (.between true))
    | '.' => if s.manner.wide then some (s.enter (.between true)) else none
    | _ => s.character c .sequence

/-- A member of a class that does not end a range, or the end of the class. -/
def member (s : State) (c : Char) : Option State :=
  if s.manner.spaced && isBlank c then some s
  else
    match c with
    | '[' => s.openClass
    | ']' => some s.closeClass
    | '\\' => some (s.enter (.escape .member))
    | _ => if s.manner.allows c then some (s.enter (.members (some c) true)) else none

/-- Two hyphens, ampersands or tildes are an operator on classes; one hyphen makes a range. -/
def afterMember (s : State) (last : Option Char) (plain : Bool) (c : Char) : Option State :=
  if plain && last == some c && ['-', '&', '~'].contains c then
    some (s.enter (.members none false))
  else if c = '-' && (last.isSome || plain) then some (s.enter (.range last))
  else s.member c

def rangeEnd (s : State) (first : Option Char) (c : Char) : Option State :=
  match c with
  | ']' => some s.closeClass
  | '-' => some (s.enter (.members none false))
  | '\\' => some (s.enter (.escape (.rangeEnd first)))
  | _ => s.character c (.rangeEnd first)

/-- A letter after a backslash stands for a control character, a class or a place; any other ASCII
character stands for itself. -/
def escaped (s : State) (place : Place) (c : Char) : Option State :=
  match c with
  | 'x' => some (s.enter (.hex 2 0 place))
  | 'u' => some (s.enter (.hex 4 0 place))
  | 'U' => some (s.enter (.hex 8 0 place))
  | 'd' | 's' | 'w' => if s.manner.wide then none else s.place none place
  | 'a' => s.character '\x07' place
  | 'f' => s.character '\x0c' place
  | 't' => s.character '\t' place
  | 'n' => s.character '\n' place
  | 'r' => s.character '\r' place
  | 'v' => s.character '\x0b' place
  | 'A' | 'z' => if place = .sequence then some (s.enter (.between true)) else none
  | 'b' | 'B' | '<' | '>' =>
    if place = .sequence && !s.manner.wide then some (s.enter (.between true)) else none
  | _ => if c.isAlphanum || 0x80 ≤ c.toNat then none else s.character c place

def hexValue? (c : Char) : Option Nat :=
  if c.isDigit then some (c.toNat - 48)
  else if 'a' ≤ c ∧ c ≤ 'f' then some (c.toNat - 87)
  else if 'A' ≤ c ∧ c ≤ 'F' then some (c.toNat - 55)
  else none

def hexDigit (s : State) (left value : Nat) (place : Place) (c : Char) : Option State := do
  let value := value * 16 + (← hexValue? c)
  if 1 < left then some (s.enter (.hex (left - 1) value place))
  else if value.isValidChar then s.character (Char.ofNat value) place
  else none

/-- A name starts with a letter or an underscore, and no two groups share one. -/
def nameCharacter (s : State) (reversed : List Char) (c : Char) : Option State :=
  if c = '>' then
    if reversed.isEmpty || s.names.contains reversed then none
    else some { s with mode := .between false, names := reversed :: s.names }
  else if c = '_' || (isAlphanumeric c && !(reversed.isEmpty && c.isDigit))
      || (!reversed.isEmpty && ['.', '[', ']'].contains c) then
    some (s.enter (.name (c :: reversed)))
  else none

def withManner (s : State) (letter : Char) (on : Bool) : State :=
  match letter with
  | 'i' => { s with manner := { s.manner with anyCase := on } }
  | 'u' => { s with manner := { s.manner with wide := on } }
  | 'x' => { s with manner := { s.manner with spaced := on } }
  | _ => s

/-- Letters that change the manner, for the group that a colon opens or for what is left of the group
around them. No letter comes twice, and a hyphen turns off those behind it. -/
def mannerLetter (s : State) (seen : List Char) (off dangling : Bool) (c : Char) : Option State :=
  match c with
  | ':' => if dangling then none else some (s.enter (.between false))
  | ')' =>
    if dangling || seen.isEmpty then none
    else some { s with mode := .between false, groups := s.groups.drop 1 }
  | '-' => if off then none else some (s.enter (.manners seen true true))
  | _ =>
    if ['i', 'm', 's', 'U', 'u', 'R', 'x'].contains c && !seen.contains c then
      some ((s.withManner c !off).enter (.manners (c :: seen) off false))
    else none

def step (s : State) (c : Char) : Option State :=
  match s.mode with
  | .between repeatable => s.between repeatable c
  | .comment repeatable => some (if c = '\n' then s.enter (.between repeatable) else s)
  | .groupOpened => if c = '?' then some (s.enter .groupMarked) else s.between false c
  | .groupMarked =>
    match c with
    | '<' => some (s.enter (.name []))
    | 'P' => some (s.enter .groupNamed)
    | _ => s.mannerLetter [] false false c
  | .groupNamed => if c = '<' then some (s.enter (.name [])) else none
  | .name reversed => s.nameCharacter reversed c
  | .manners seen off dangling => s.mannerLetter seen off dangling c
  | .classOpened negatable =>
    if c = '^' && negatable then
      if s.manner.wide then some (s.enter (.classOpened false)) else none
    else if c = '-' then some (s.enter .hyphens)
    else if c = ']' then some (s.enter (.members none false))
    else s.member c
  | .hyphens => if c = '-' then some s else s.member c
  | .members last plain => s.afterMember last plain c
  | .range first => s.rangeEnd first c
  | .escape place => s.escaped place c
  | .hex left value place => s.hexDigit left value place c

def finished (s : State) : Bool :=
  match s.mode with
  | .between _ | .comment _ => s.groups.isEmpty
  | .groupOpened | .groupMarked | .groupNamed | .name _ | .manners .. | .classOpened _ | .hyphens
  | .members .. | .range _ | .escape _ | .hex .. => false

end State

/-- Whether the text is a regular expression. -/
def isExpression (text : List Char) : Bool :=
  (text.foldlM State.step State.start).any State.finished

/-- Digits with a point and a power, or one of the names of what is no finite number. -/
def isDecimal (text : List Char) : Bool :=
  let lower := text.map Char.toLower
  let whole := lower.takeWhile Char.isDigit
  let rest := lower.dropWhile Char.isDigit
  let (fraction, rest) :=
    match rest with
    | '.' :: cs => (cs.takeWhile Char.isDigit, cs.dropWhile Char.isDigit)
    | _ => ([], rest)
  let power :=
    match rest with
    | [] => true
    | 'e' :: '-' :: cs | 'e' :: '+' :: cs | 'e' :: cs => !cs.isEmpty && cs.all Char.isDigit
    | _ => false
  (!(whole ++ fraction).isEmpty && power)
    || ["inf", "infinity", "nan"].contains (String.ofList lower)

/-- A number with a plus sign is no regular expression; every other one is. -/
def isNumber : List Char → Bool
  | '+' :: cs => isDecimal cs
  | cs => isDecimal cs

end ValuePattern

/-- Whether a value can be asked to match the text. -/
def isValuePattern (text : String) : Bool :=
  ValuePattern.isNumber text.toList || ValuePattern.isExpression text.toList

end EntityForge.Log
