import EntityForge.Surface.Subject
import EntityForge.TypeScript

/-!
The typed interface of an entity: its fields, and after them its relations as optional members.
-/

namespace EntityForge

/-- The type of a member. -/
inductive ContractType where
  | value (surface : SurfaceType) (nullable : Bool)
  | entity (target : String) (many : Bool)
  deriving Repr, DecidableEq

def ContractType.text : ContractType → String
  | .value surface nullable => surface.name ++ (if nullable then " | null" else "")
  | .entity target many => target ++ "Entity" ++ (if many then "[]" else "")

def Field.contractType (field : Field) : ContractType := .value field.surface (!field.required)

def Accessor.contractType (accessor : Accessor) : ContractType :=
  .entity accessor.target accessor.kind.isMany

structure ContractMember where
  name : String
  mayBeAbsent : Bool
  type : ContractType
  deriving Repr, DecidableEq

def ContractMember.text (m : ContractMember) : String :=
  "  " ++ m.name ++ (if m.mayBeAbsent then "?" else "") ++ ": " ++ m.type.text ++ ";\n"

structure Contract where
  entity : String
  fields : List ContractMember
  relations : List ContractMember
  deriving Repr, DecidableEq

namespace Contract

def of (subject : Subject) : Contract where
  entity := subject.entity.name
  fields := subject.entity.fields.map fun f => ⟨f.name, false, f.contractType⟩
  relations := subject.accessors.map fun a => ⟨a.name, true, a.contractType⟩

def members (contract : Contract) : List ContractMember := contract.fields ++ contract.relations

/-- The interface that every contract extends. -/
def base : String := "_BaseEntity"

def declaration (contract : Contract) : TypeScript.Declaration where
  lead := ""
  keyword := .interface
  name := contract.entity ++ "Entity"
  body := s!" extends {base} \x7b\n" ++ String.join (contract.fields.map ContractMember.text)
    ++ (if contract.relations.isEmpty then ""
        else "\n" ++ String.join (contract.relations.map ContractMember.text))
    ++ "\x7d\n"

end Contract

end EntityForge
