import EntityForge.Text.Quoted

/-!
What a run tells about itself: events with a level and a source, and which of them are shown.

A filter is a list of rules. Of the rules that apply to an event the most particular one decides: the
one with the longest source, then one that asks for a fact, and of several alike the last one.
-/

namespace EntityForge.Log

inductive Level where
  | error
  | warn
  | info
  | debug
  | trace
  deriving Repr, DecidableEq

namespace Level

def all : List Level := [.error, .warn, .info, .debug, .trace]

def name : Level → String
  | .error => "ERROR"
  | .warn => "WARN"
  | .info => "INFO"
  | .debug => "DEBUG"
  | .trace => "TRACE"

/-- How much is shown up to this level. -/
def rank : Level → Nat
  | .error => 1
  | .warn => 2
  | .info => 3
  | .debug => 4
  | .trace => 5

end Level

structure Event where
  level : Level
  source : String
  message : String
  /-- Further facts, each with its value as it is shown. -/
  facts : List (String × String)
  deriving Repr, DecidableEq

def Event.line (e : Event) : String :=
  e.level.name ++ " " ++ e.source ++ ": " ++ Text.controlsShown e.message
    ++ String.join (e.facts.map fun (key, value) => " " ++ key ++ "=" ++ value)

/-- The message is a fact too. -/
def Event.hasFact (e : Event) (name : String) : Bool :=
  name == "message" || e.facts.any fun fact => fact.1 == name

/-- What a rule asks of the facts of an event, or of those of a span around it. -/
structure FactTest where
  name : String
  /-- The pattern that the value is to match. -/
  value? : Option String
  deriving Repr, DecidableEq

/-- Shows the events of a source, and of all sources below it, up to a level: none at all if there is no
level. -/
structure Rule where
  source : String
  /-- The span within which an event has to happen. -/
  span? : Option String
  fact? : Option FactTest
  limit : Option Level
  deriving Repr, DecidableEq

namespace Rule

def admits (rule : Rule) (level : Level) : Bool :=
  match rule.limit with
  | none => false
  | some limit => level.rank ≤ limit.rank

/-- Values are looked at in spans only, and as events happen in no span, a rule that asks for a span or
for a value never applies. -/
def asks (rule : Rule) (event : Event) : Bool :=
  match rule.span?, rule.fact? with
  | none, none => true
  | none, some ⟨name, none⟩ => event.hasFact name
  | none, some ⟨_, some _⟩ => false
  | some _, _ => false

def applies (rule : Rule) (event : Event) : Bool :=
  rule.source.toList.isPrefixOf event.source.toList && rule.asks event

def factName (rule : Rule) : String := (rule.fact?.map FactTest.name).getD ""

/-- Whether a rule gives way to one that comes later and applies as well. Where both ask for a fact, the
order of the names decides. -/
def yieldsTo (rule later : Rule) : Bool :=
  rule.source.length < later.source.length
    || (rule.source.length == later.source.length && !decide (later.factName < rule.factName))

end Rule

abbrev Filter := List Rule

namespace Filter

/-- The rule that decides among those that apply to an event. -/
def deciding? (event : Event) : Filter → Option Rule
  | [] => none
  | rule :: rules =>
    if rule.applies event then
      match deciding? event rules with
      | some other => if rule.yieldsTo other then some other else some rule
      | none => some rule
    else deciding? event rules

def shows (filter : Filter) (event : Event) : Bool :=
  (deciding? event filter).any fun rule => rule.admits event.level

def upTo (level : Level) : Filter := [⟨"", none, none, some level⟩]

end Filter

end EntityForge.Log
