import EntityForge.Identifier
import EntityForge.Schema

/-!
Relations resolved: for each one the column that is looked up, the value of the owning row it is looked
up by, and the join entity in between when there is one.
-/

namespace EntityForge

/-- The rows of `entity` whose `column` equals the `parentKey` of the owning row. -/
structure KeyLookup where
  entity : String
  column : String
  parentKey : String
  /-- The type of the column, which is the side that carries the key. -/
  dataType : DataType
  deriving Repr, DecidableEq

inductive Association where
  /-- The related rows are found by one lookup. -/
  | direct (lookup : KeyLookup)
  /-- Join rows are looked up first; related are the rows whose `targetColumn` is among the values of
  `joinColumn` in those. -/
  | joined (through : String) (lookup : KeyLookup) (joinColumn targetColumn : String)
  deriving Repr, DecidableEq

namespace Association

/-- The lookup made with the owning row. -/
def firstHop : Association → KeyLookup
  | .direct lookup => lookup
  | .joined _ lookup _ _ => lookup

end Association

structure Accessor where
  kind : RelationKind
  name : String
  target : String
  association : Association
  deriving Repr, DecidableEq

inductive ResolveError where
  | unknownEntity (owner target missing : String)
  | unknownKey (owner target entity key : String)
  deriving Repr, DecidableEq

def ResolveError.message : ResolveError → String
  | .unknownEntity owner target missing =>
    "Relationship " ++ owner ++ " -> " ++ target ++ ": " ++ missing ++ " is not a loaded model"
  | .unknownKey owner target entity key =>
    "Entity " ++ owner ++ ": relationship to " ++ target ++ " names key `" ++ key ++ "`, which "
      ++ entity ++ " does not declare"

namespace Entity

/-- The type of a column. An entity that declares no other primary key has an integer `id` even when it
does not declare that. -/
def columnType? (entity : Entity) (column : String) : Option DataType :=
  match entity.field? column with
  | some field => some field.dataType
  | none =>
    if column = implicitKey ∧ entity.primaryKey = implicitKey then some .integer else none

end Entity

namespace Accessor

abbrev Resolve (α : Type) := Except ResolveError α

def requireEntity (schema : Schema) (owner target name : String) : Resolve Entity :=
  match schema.entity? name with
  | some entity => .ok entity
  | none => .error (.unknownEntity owner target name)

def requireColumn (owner target : String) (entity : Entity) (column : String) :
    Resolve DataType :=
  match entity.columnType? column with
  | some dataType => .ok dataType
  | none => .error (.unknownKey owner target entity.name column)

def keyLookup (owner : Entity) (target : String) (queried : Entity) (column parentKey : String) :
    Resolve KeyLookup := do
  let _ ← requireColumn owner.name target owner parentKey
  let dataType ← requireColumn owner.name target queried column
  return ⟨queried.name, column, parentKey, dataType⟩

/-- The looked-up column and the key of the owning row, when the foreign key is on the target or on the
owner. -/
def directKeys (owner target : Entity) (relation : Relation) : String × String :=
  match relation.kind with
  | .hasOne | .hasMany =>
    (relation.foreignKey, relation.sourceKey.getD owner.primaryKey)
  | .belongsToOne | .belongsToMany =>
    (relation.targetKey.getD target.primaryKey, relation.foreignKey)

def direct (owner target : Entity) (relation : Relation) : Resolve Association := do
  let (column, parentKey) := directKeys owner target relation
  return .direct (← keyLookup owner target.name target column parentKey)

/-- The key of the owning row and the column of the target, when a join entity is in between. -/
def joinedKeys (owner target : Entity) (relation : Relation) : String × String :=
  match relation.kind with
  | .belongsToMany => (owner.primaryKey, relation.targetKey.getD target.primaryKey)
  | .hasOne | .hasMany | .belongsToOne =>
    (relation.sourceKey.getD owner.primaryKey, target.primaryKey)

/-- The first field of the join entity that references the target, or else the one that its name
suggests. -/
def joinColumn (join target : Entity) : String :=
  match join.fields.find? fun f => f.references == some target.name with
  | some field => field.name
  | none => Identifier.snake target.name ++ "_id"

def joined (owner target join : Entity) (relation : Relation) : Resolve Association := do
  let (parentKey, targetColumn) := joinedKeys owner target relation
  let lookup ← keyLookup owner target.name join relation.foreignKey parentKey
  let column := joinColumn join target
  let _ ← requireColumn owner.name target.name join column
  let _ ← requireColumn owner.name target.name target targetColumn
  return .joined join.name lookup column targetColumn

/-- Only a relation to many goes through a join entity. -/
def joinOf (relation : Relation) : Option String :=
  if relation.kind.isMany then relation.through else none

def resolve (schema : Schema) (owner : Entity) (relation : Relation) : Resolve Accessor := do
  let target ← requireEntity schema owner.name relation.target relation.target
  let association ←
    match joinOf relation with
    | some name => do
      let join ← requireEntity schema owner.name relation.target name
      joined owner target join relation
    | none => direct owner target relation
  return ⟨relation.kind, relation.name, target.name, association⟩

end Accessor

/-- An entity with its accessors, one for each relation and in the same order. -/
structure ResolvedEntity where
  entity : Entity
  accessors : List Accessor
  deriving Repr, DecidableEq

namespace Schema

def resolve (schema : Schema) : Except ResolveError (List ResolvedEntity) :=
  schema.entities.mapM fun entity => do
    return ⟨entity, ← entity.relations.mapM (Accessor.resolve schema entity)⟩

end Schema

end EntityForge
