import EntityForge.DataType
import EntityForge.Document

/-!
The schema: a document whose models are known to make sense, each with its own fields, indexes and
relations.
-/

namespace EntityForge

/-- The value of a field that is not given. -/
inductive DefaultValue where
  | null
  /-- The moment at which the row is inserted. -/
  | now
  | flag (value : Bool)
  | int (value : Int)
  | float (value : Binary64)
  | text (value : String)
  deriving Repr, DecidableEq

structure Field where
  name : String
  dataType : DataType
  required : Bool
  primaryKey : Bool
  unique : Bool
  minLength : Option Nat
  maxLength : Option Nat
  default? : Option DefaultValue
  references : Option String
  deriving Repr, DecidableEq

structure Index where
  unique : Bool
  fields : List String
  deriving Repr, DecidableEq

inductive RelationKind where
  | hasOne
  | hasMany
  | belongsToOne
  | belongsToMany
  deriving Repr, DecidableEq

/-- A relation as it is declared; which columns it joins is settled when it is resolved. -/
structure Relation where
  kind : RelationKind
  target : String
  /-- The member of the owner that the relation is reached by. -/
  name : String
  foreignKey : String
  sourceKey : Option String
  targetKey : Option String
  through : Option String
  deriving Repr, DecidableEq

structure Entity where
  name : String
  tableName : String
  fields : List Field
  indexes : List Index
  relations : List Relation
  deriving Repr, DecidableEq

structure Schema where
  entities : List Entity
  api : ApiHeader
  deriving Repr, DecidableEq

namespace RelationKind

def isMany : RelationKind → Bool
  | .hasMany | .belongsToMany => true
  | .hasOne | .belongsToOne => false

def name : RelationKind → String
  | .hasOne => "hasOne"
  | .hasMany => "hasMany"
  | .belongsToOne => "belongsToOne"
  | .belongsToMany => "belongsToMany"

end RelationKind

namespace Field

def surface (field : Field) : SurfaceType := field.dataType.surface

/-- A field holds a moment when its type says so or its name ends in `_at`. -/
def isTimestamp (field : Field) : Bool :=
  field.dataType.isTemporal || ['_', 'a', 't'].isSuffixOf field.name.toList

/-- An integer primary key counts up by itself. -/
def isSerial (field : Field) : Bool :=
  field.primaryKey && field.dataType == .integer

end Field

namespace Entity

def field? (entity : Entity) (name : String) : Option Field :=
  entity.fields.find? fun f => f.name == name

/-- The key of an entity that declares none. -/
def implicitKey : String := "id"

def keyField? (entity : Entity) : Option Field := entity.fields.find? Field.primaryKey

def primaryKey (entity : Entity) : String :=
  match entity.keyField? with
  | some field => field.name
  | none => implicitKey

end Entity

namespace Schema

def entity? (schema : Schema) (name : String) : Option Entity :=
  schema.entities.find? fun e => e.name == name

end Schema

end EntityForge
