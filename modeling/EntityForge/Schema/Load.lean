import EntityForge.Schema

/-!
Which documents are schemas.

The models are checked one by one in the order of the document, and only then the relationships, so
that a relationship may name any model. The first thing that is wrong decides.
-/

namespace EntityForge

inductive LoadError where
  | noModels
  | unknownDataType (name : String)
  | severalPrimaryKeys (entity : String)
  | unknownIndexField (entity field : String)
  | unknownOwner (owner target : String)
  | repeatedName (entity name : String)
  deriving Repr, DecidableEq

def LoadError.message : LoadError → String
  | .noModels => "Configuration error: document declares no models"
  | .unknownDataType name =>
    "dataType `" ++ name ++ "` has no entry in the " ++ TypeTable.surface.name ++ " type table"
  | .severalPrimaryKeys entity =>
    "Configuration error: entity " ++ entity ++ " declares more than one primary key"
  | .unknownIndexField entity field =>
    "Configuration error: entity " ++ entity ++ ": index names unknown field " ++ field
  | .unknownOwner owner target =>
    "Relationship " ++ owner ++ " -> " ++ target ++ ": " ++ owner ++ " is not a loaded model"
  | .repeatedName entity name =>
    "Entity " ++ entity ++ ": alias `" ++ name ++ "` is declared more than once"

/-- The text `now` stands for the moment of insertion. -/
def DefaultDecl.value : DefaultDecl → DefaultValue
  | .null => .null
  | .text s => if s = "now" then .now else .text s
  | .flag b => .flag b
  | .int n => .int n
  | .float x => .float x

namespace FieldDecl

def load (name : String) (decl : FieldDecl) : Except LoadError Field :=
  match DataType.ofName? decl.dataType with
  | none => .error (.unknownDataType decl.dataType)
  | some dataType =>
    .ok {
      name
      dataType
      required := decl.required
      primaryKey := decl.primaryKey
      unique := decl.unique
      minLength := decl.minLength
      maxLength := decl.maxLength
      default? := decl.default?.map DefaultDecl.value
      references := decl.references }

end FieldDecl

namespace ModelDecl

/-- The first field that an index names and the model does not have. -/
def strayIndexField? (indexes : List IndexDecl) (fields : List Field) : Option String :=
  (indexes.flatMap IndexDecl.fields).find? fun name => !fields.any fun f => f.name == name

/-- The entity of a model, as yet without relations. -/
def load (name : String) (decl : ModelDecl) : Except LoadError Entity := do
  let fields ← decl.fields.mapM fun (fieldName, field) => field.load fieldName
  if 1 < fields.countP Field.primaryKey then .error (.severalPrimaryKeys name)
  else
    match strayIndexField? decl.indexes fields with
    | some field => .error (.unknownIndexField name field)
    | none =>
      return {
        name
        tableName := decl.tableName
        fields
        indexes := decl.indexes.map fun i => ⟨i.unique, i.fields⟩
        relations := [] }

end ModelDecl

namespace RelationBlock

def ofKind (kind : RelationKind) (entries : Entries RelationDecl) : List Relation :=
  entries.map fun (target, decl) =>
    { kind
      target
      name := decl.name
      foreignKey := decl.foreignKey
      sourceKey := decl.sourceKey
      targetKey := decl.targetKey
      through := decl.through }

def relations (block : RelationBlock) : List Relation :=
  ofKind .hasOne block.hasOne ++ ofKind .hasMany block.hasMany
    ++ ofKind .belongsToOne block.belongsToOne ++ ofKind .belongsToMany block.belongsToMany

end RelationBlock

/-- The first name that is in `taken` or that a relation before it has. -/
def repeatedName? : List String → List Relation → Option String
  | _, [] => none
  | taken, r :: rs =>
    if taken.contains r.name then some r.name else repeatedName? (r.name :: taken) rs

namespace Schema

/-- The entities with the relations of one block attached to its owner. A block for an unknown owner
is an error as soon as it names a target. -/
def attach (entities : List Entity) (owner : String) (block : RelationBlock) :
    Except LoadError (List Entity) :=
  match entities.find? fun e => e.name == owner with
  | none =>
    match block.targets with
    | [] => .ok entities
    | target :: _ => .error (.unknownOwner owner target)
  | some entity =>
    match repeatedName? (entity.fields.map Field.name) block.relations with
    | some name => .error (.repeatedName owner name)
    | none =>
      .ok (entities.map fun e => if e.name == owner then { e with relations := block.relations } else e)

def attachAll : List Entity → List (String × RelationBlock) → Except LoadError (List Entity)
  | entities, [] => .ok entities
  | entities, (owner, block) :: blocks => do attachAll (← attach entities owner block) blocks

/-- The entities of a document, as yet without relations. -/
def loadModels (doc : Document) : Except LoadError (List Entity) :=
  match doc.models with
  | none | some [] => .error .noModels
  | some models => models.mapM fun (name, model) => model.load name

def load (doc : Document) : Except LoadError Schema := do
  return ⟨← attachAll (← loadModels doc) doc.relationships, doc.api⟩

end Schema

end EntityForge
