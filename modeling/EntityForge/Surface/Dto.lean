import EntityForge.Surface.Contract

/-!
The classes that carry what a client sends: the body of a request to create or update an entity, and
the query of a search.
-/

namespace EntityForge

/-- A check on a property when a request comes in. -/
inductive Decorator where
  | isDefined
  | isOptional
  | isString
  | isInt
  | isBoolean
  | matchesPattern (constant : String)
  deriving Repr, DecidableEq

def Decorator.text : Decorator → String
  | .isDefined => "@IsDefined()"
  | .isOptional => "@IsOptional()"
  | .isString => "@IsString()"
  | .isInt => "@IsInt()"
  | .isBoolean => "@IsBoolean()"
  | .matchesPattern constant => "@Matches(" ++ constant ++ ")"

def SurfaceType.check : SurfaceType → Decorator
  | .string => .isString
  | .number => .isInt
  | .boolean => .isBoolean

structure DtoProperty where
  name : String
  decorators : List Decorator
  mayBeAbsent : Bool
  type : ContractType
  deriving Repr, DecidableEq

namespace DtoProperty

def ofBody (field : Field) : DtoProperty where
  name := field.name
  decorators := [if field.required then .isDefined else .isOptional, field.surface.check]
  mayBeAbsent := !field.required
  type := field.contractType

def textPattern : String := "ALPHANUMERIC_SPACE_DASH_UNDERSCORE_DOT_COMMA_COLON_SLASH_REGEX"

def comparatorPattern : String := "INTEGER_WITH_COMPARATOR_REGEX"

/-- The key under which a search asks for a field. A query string carries no numbers, so a number is
asked for by a comparison, under a key of its own. -/
def searchKey (field : Field) : String :=
  match field.surface with
  | .number => field.name ++ "_op"
  | .string | .boolean => field.name

def ofSearch (field : Field) : DtoProperty where
  name := searchKey field
  decorators :=
    match field.surface with
    | .string => [.isOptional, .isString, .matchesPattern textPattern]
    | .boolean => [.isOptional, .isBoolean]
    | .number => [.isOptional, .isString, .matchesPattern comparatorPattern]
  mayBeAbsent := true
  type :=
    match field.surface with
    | .boolean => .value .boolean true
    | .string | .number => .value .string true

/-- A blank line sets each property apart. -/
def text (p : DtoProperty) : String :=
  "\n" ++ String.join (p.decorators.map fun d => "  " ++ d.text ++ "\n")
    ++ "  " ++ p.name ++ (if p.mayBeAbsent then "?" else "") ++ ": " ++ p.type.text ++ ";\n"

end DtoProperty

inductive DtoKind where
  | create
  | update
  | search
  deriving Repr, DecidableEq

def DtoKind.word : DtoKind → String
  | .create => "Create"
  | .update => "Update"
  | .search => "Search"

structure Dto where
  kind : DtoKind
  entity : String
  properties : List DtoProperty
  deriving Repr, DecidableEq

namespace Dto

def of (kind : DtoKind) (subject : Subject) : Dto where
  kind
  entity := subject.entity.name
  properties := subject.entity.fields.map <|
    match kind with
    | .create | .update => DtoProperty.ofBody
    | .search => DtoProperty.ofSearch

def nameOf (kind : DtoKind) (entity : String) : String := kind.word ++ entity ++ "Dto"

def name (dto : Dto) : String := nameOf dto.kind dto.entity

def validators : List String := ["IsBoolean", "IsDefined", "IsInt", "IsOptional", "IsString"]

def imports (dto : Dto) : List TypeScript.Import :=
  let contract := .named [dto.entity ++ "Entity"] "../../../generated/model-interfaces"
  match dto.kind with
  | .create | .update => [contract, .named validators "class-validator"]
  | .search =>
    [contract, .named (validators ++ ["Matches"]) "class-validator",
     .named [DtoProperty.textPattern, DtoProperty.comparatorPattern]
       "../../../generated/common.regex"]

def declaration (dto : Dto) : TypeScript.Declaration where
  lead := ""
  keyword := .classType
  name := dto.name
  body :=
    (match dto.kind with
      | .create | .update => " implements Partial<" ++ dto.entity ++ "Entity>"
      | .search => "")
    ++ " \x7b\n" ++ String.join (dto.properties.map DtoProperty.text) ++ "\x7d\n"

def script (dto : Dto) : TypeScript.Script := ⟨dto.imports, [.declaration dto.declaration]⟩

end Dto

end EntityForge
