import EntityForge.Json.Record

/-!
The model document: models with their fields and indexes, the relationships between them, and the
header of the API they are published under.

A document is read without being checked. Maps keep the order in which their keys first came.
-/

namespace EntityForge

/-- The value of a field that is not given, as the document states it. -/
inductive DefaultDecl where
  | null
  | flag (value : Bool)
  | int (value : Int)
  | float (value : Binary64)
  | text (value : String)
  deriving Repr, DecidableEq

structure FieldDecl where
  dataType : String
  required : Bool
  primaryKey : Bool
  unique : Bool
  minLength : Option Nat
  maxLength : Option Nat
  default? : Option DefaultDecl
  references : Option String
  deriving Repr, DecidableEq

structure IndexDecl where
  unique : Bool
  fields : List String
  deriving Repr, DecidableEq

structure ModelDecl where
  tableName : String
  fields : Entries FieldDecl
  indexes : List IndexDecl
  deriving Repr, DecidableEq

structure RelationDecl where
  name : String
  foreignKey : String
  sourceKey : Option String
  targetKey : Option String
  through : Option String
  deriving Repr, DecidableEq

/-- The relations of one model, by kind and then by target. -/
structure RelationBlock where
  hasOne : Entries RelationDecl
  hasMany : Entries RelationDecl
  belongsToOne : Entries RelationDecl
  belongsToMany : Entries RelationDecl
  deriving Repr, DecidableEq

structure Server where
  url : String
  description : String
  deriving Repr, DecidableEq

/-- What a published API says of itself. -/
structure ApiHeader where
  title : String
  description : String
  version : String
  servers : List Server
  deriving Repr, DecidableEq

structure Document where
  models : Option (Entries ModelDecl)
  relationships : Entries RelationBlock
  api : ApiHeader
  deriving Repr, DecidableEq

namespace RelationBlock

def targets (block : RelationBlock) : List String :=
  block.hasOne.keys ++ block.hasMany.keys ++ block.belongsToOne.keys ++ block.belongsToMany.keys

end RelationBlock

/-- The header of a document that states none. -/
def ApiHeader.standard : ApiHeader where
  title := "API"
  description := "Generated API"
  version := "1.0.0"
  servers := [⟨"http://localhost:4000/web", "Local server"⟩]

end EntityForge
