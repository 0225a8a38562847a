/-!
The parts of a generated module that other modules depend on: what it imports, what it exports, and the
signatures of its methods.
-/

namespace EntityForge.TypeScript

inductive Import where
  /-- Loaded for its effect alone. -/
  | effect (source : String)
  | named (imported : List String) (source : String)
  deriving Repr, DecidableEq

namespace Import

def source : Import → String
  | .effect source => source
  | .named _ source => source

def imported : Import → List String
  | .effect _ => []
  | .named imported _ => imported

def text : Import → String
  | .effect source => s!"import \"{source}\";\n"
  | .named imported source =>
    let list := ", ".intercalate imported
    s!"import \x7b {list} \x7d from \"{source}\";\n"

end Import

inductive Keyword where
  | interface
  | constant
  | function
  | classType
  | enumeration
  deriving Repr, DecidableEq

def Keyword.text : Keyword → String
  | .interface => "interface"
  | .constant => "const"
  | .function => "async function"
  | .classType => "class"
  | .enumeration => "enum"

/-- An exported declaration: `lead` stands before it and `body` after its name. -/
structure Declaration where
  lead : String
  keyword : Keyword
  name : String
  body : String
  deriving Repr, DecidableEq

def Declaration.text (d : Declaration) : String :=
  d.lead ++ "export " ++ d.keyword.text ++ " " ++ d.name ++ d.body

def constant (name body : String) : Declaration := ⟨"", .constant, name, " = " ++ body⟩

inductive Item where
  | declaration (d : Declaration)
  | statement (text : String)
  deriving Repr, DecidableEq

def Item.text : Item → String
  | .declaration d => d.text
  | .statement text => text

def blankLine : Item := .statement "\n"

/-- The items with a blank line between each two of them. -/
def spaced (items : List Item) : List Item := items.intersperse blankLine

structure Script where
  imports : List Import
  items : List Item
  deriving Repr, DecidableEq

namespace Script

/-- A blank line sets the imports apart. -/
def text (script : Script) : String :=
  String.join (script.imports.map Import.text)
    ++ (if script.imports.isEmpty then "" else "\n")
    ++ String.join (script.items.map Item.text)

def declarations (script : Script) : List Declaration :=
  script.items.filterMap fun
    | .declaration d => some d
    | .statement _ => none

def exports (script : Script) : List String := script.declarations.map Declaration.name

end Script

structure Parameter where
  name : String
  type : String
  deriving Repr, DecidableEq

def Parameter.text (p : Parameter) : String := s!"{p.name}: {p.type}"

structure Signature where
  name : String
  parameters : List Parameter
  result : String
  deriving Repr, DecidableEq

def Signature.text (s : Signature) : String :=
  let list := ", ".intercalate (s.parameters.map Parameter.text)
  s!"{s.name}({list}): {s.result}"

def lines (ls : List String) : String := String.join (ls.map (· ++ "\n"))

end EntityForge.TypeScript
