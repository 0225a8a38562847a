import EntityForge.Log
import EntityForge.Log.ValuePattern

/-!
What a setting says about the events to show: rules with commas in between.

A rule is a level, or a source with a level. In square brackets behind the source stand a span and, in
braces, a fact that is asked for.
-/

namespace EntityForge.Log

open Text (isBlank isAlphanumeric)

def Level.named? (text : String) : Option Level :=
  Level.all.find? fun level =>
    text.toList.map Char.toLower == level.name.toList.map Char.toLower

namespace Setting

/-- A number is digits, with a plus sign before them or not. -/
def number? (text : List Char) : Option Nat :=
  let digits :=
    match text with
    | '+' :: cs => cs
    | cs => cs
  if !digits.isEmpty && digits.all Char.isDigit then
    some (digits.foldl (fun acc c => acc * 10 + (c.toNat - 48)) 0)
  else none

/-- A level by its name, in any case of letters, or by its number; nothing at all is shown at zero. -/
def limit? (text : String) : Option (Option Level) :=
  match number? text.toList with
  | some 0 => some none
  | some n => (Level.all.find? fun level => level.rank == n).map some
  | none =>
    if text.toList.map Char.toLower == ['o', 'f', 'f'] then some none
    else (Level.named? text).map some

/-- The stretches between the marks. -/
def pieces (mark : Char) : List Char → List (List Char)
  | [] => [[]]
  | c :: cs =>
    if c = mark then [] :: pieces mark cs
    else
      match pieces mark cs with
      | [] => [[c]]
      | piece :: rest => (c :: piece) :: rest

def dropBytes? : Nat → List Char → Option (List Char)
  | 0, cs => some cs
  | _ + 1, [] => none
  | n + 1, c :: cs => if c.utf8Size ≤ n + 1 then dropBytes? (n + 1 - c.utf8Size) cs else none

def takeBytes? : Nat → List Char → Option (List Char)
  | 0, _ => some []
  | _ + 1, [] => none
  | n + 1, c :: cs =>
    if c.utf8Size ≤ n + 1 then (takeBytes? (n + 1 - c.utf8Size) cs).map (c :: ·) else none

def width (cs : List Char) : Nat := (String.ofList cs).utf8ByteSize

/-- The text of a rule, and what of it is left without the blanks at its ends. The rule is made out in
the latter, but its parts are cut from the whole text, at the same distances from the start. So blanks
behind a rule belong to its last part, and blanks before it shift every part. -/
structure Source where
  whole : List Char
  body : List Char

namespace Source

def ofChars (whole : List Char) : Source :=
  ⟨whole, ((whole.dropWhile isBlank).reverse.dropWhile isBlank).reverse⟩

def place (s : Source) (rest : List Char) : Nat := width s.body - width rest

/-- From where `rest` starts to where `after` starts, both being ends of the body. -/
def part? (s : Source) (rest after : List Char) : Option String := do
  let behind ← dropBytes? (s.place rest) s.whole
  let cut ← takeBytes? (s.place after - s.place rest) behind
  return String.ofList cut

/-- From where `rest` starts to the very end. -/
def lastPart? (s : Source) (rest : List Char) : Option String :=
  (dropBytes? (s.place rest) s.whole).map String.ofList

/-- An equals sign with nothing behind it stands for all levels. -/
def level? (s : Source) (rest : List Char) : Option (Option Level) := do
  let text ← s.lastPart? rest
  if text.isEmpty then some (some .trace) else limit? text

/-- A name, or a name and a pattern with an equals sign in between; whatever follows a second one is
left out. -/
def factTest? (text : String) : Option FactTest :=
  match (pieces '=' text.toList).map String.ofList with
  | name :: value :: _ => if isValuePattern value then some ⟨name, some value⟩ else none
  | _ => some ⟨text, none⟩

/-- What may stand behind the brackets. -/
def ending? (s : Source) (source : String) (span? : Option String) (fact? : Option FactTest) :
    List Char → Option Rule
  | [] => some ⟨source, span?, fact?, some .trace⟩
  | '=' :: rest => (s.level? rest).map fun limit => ⟨source, span?, fact?, limit⟩
  | _ => none

/-- From behind the opening bracket on. -/
def brackets? (s : Source) (source : String) (rest : List Char) : Option Rule :=
  match rest.dropWhile fun c => c != ']' && c != '\x7b' with
  | ']' :: after => do
    s.ending? source (some (← s.part? rest (']' :: after))) none after
  | '\x7b' :: inner => do
    let span ← s.part? rest ('\x7b' :: inner)
    let closing := inner.dropWhile (· != '\x7d')
    let fact ← s.part? inner closing
    if fact.isEmpty then none
    else
      match closing with
      | '\x7d' :: ']' :: after =>
        s.ending? source (if span.isEmpty then none else some span) (some (← factTest? fact)) after
      | _ => none
  | _ => none

/-- What a rule may start with, besides a bracket. -/
def startsRule (c : Char) : Bool := isAlphanumeric c || c == '_' || c == ':' || c == '-'

/-- A source alone shows all of its events. -/
def rule? (s : Source) : Option Rule :=
  match s.body with
  | [] => none
  | '[' :: rest => s.brackets? "" rest
  | c :: _ =>
    if !startsRule c then none
    else
      match s.body.dropWhile fun c => c != '=' && c != '[' with
      | '=' :: rest => do
        let source ← s.part? s.body ('=' :: rest)
        return ⟨source, none, none, ← s.level? rest⟩
      | '[' :: rest => do s.brackets? (← s.part? s.body ('[' :: rest)) rest
      | _ =>
        let text := String.ofList s.whole
        match limit? text with
        | some limit => some ⟨"", none, none, limit⟩
        | none => some ⟨text, none, none, some .trace⟩

end Source

end Setting

namespace Filter

/-- Where there are no rules, only errors are shown. -/
def parse? (text : String) : Option Filter := do
  let parts := (Setting.pieces ',' text.toList).filter fun part => !part.isEmpty
  let rules ← parts.mapM fun part => (Setting.Source.ofChars part).rule?
  return if rules.isEmpty then upTo .error else rules

/-- The filter that a setting asks for. What cannot be read counts as no setting. -/
def ofSetting (setting : Option String) (standard : Level) : Filter :=
  match setting.bind parse? with
  | some filter => filter
  | none => upTo standard

end Filter

end EntityForge.Log
