import EntityForge.Comparator
import EntityForge.Json.Printer
import EntityForge.Surface.Dto

/-!
The part of an OpenAPI document that describes one entity: three paths with their operations, and the
schemas these refer to.
-/

namespace EntityForge.OpenApi

/-- The type of a value in a schema. -/
inductive ValueType where
  | string
  | integer
  | number
  | boolean
  deriving Repr, DecidableEq

def ValueType.name : ValueType → String
  | .string => "string"
  | .integer => "integer"
  | .number => "number"
  | .boolean => "boolean"

inductive Format where
  | dateTime
  | int64
  | double
  | uuid
  deriving Repr, DecidableEq

def Format.name : Format → String
  | .dateTime => "date-time"
  | .int64 => "int64"
  | .double => "double"
  | .uuid => "uuid"

def valueType (field : Field) : ValueType :=
  match field.dataType with
  | .integer => .integer
  | .float => .number
  | .boolean => .boolean
  | _ => .string

/-- A moment is formatted as one, whatever its type. -/
def formatOf? (field : Field) : Option Format :=
  if field.isTimestamp then some .dateTime
  else
    match field.dataType with
    | .integer => some .int64
    | .float => some .double
    | .uuid => some .uuid
    | _ => none

structure ValueSchema where
  type : ValueType
  format? : Option Format
  deriving Repr, DecidableEq

namespace ValueSchema

def of (field : Field) : ValueSchema := ⟨valueType field, formatOf? field⟩

def members (schema : ValueSchema) : List (String × Json) :=
  ("type", .string schema.type.name)
    :: (schema.format?.map fun f => ("format", .string f.name)).toList

def toJson (schema : ValueSchema) : Json := .object schema.members

end ValueSchema

def describe (field : Field) : Json := .string (Identifier.sentence field.name)

def property (field : Field) : Json :=
  .object ((ValueSchema.of field).members ++ [("description", describe field)])

def properties (entity : Entity) : Json :=
  .object (Entries.ofList (entity.fields.map fun f => (f.name, property f)))

def exampleValue (field : Field) : Json :=
  if field.isTimestamp then .string "2024-01-01T00:00:00Z"
  else
    match valueType field with
    | .integer | .number => Json.ofInt 1
    | .boolean => .bool true
    | .string => .string ""

def sample (entity : Entity) : Json :=
  .object (Entries.ofList (entity.fields.map fun f => (f.name, exampleValue f)))

def required (entity : Entity) : List String :=
  (entity.fields.filter Field.required).map Field.name

def schemaRoot : String := "#/components/schemas/"

def reference (schema : String) : Json := .object [("$ref", .string (schemaRoot ++ schema))]

def listOf (items : Json) : Json := .object [("type", .string "array"), ("items", items)]

def jsonContent (members : List (String × Json)) : Json :=
  .object [("application/json", .object members)]

inductive Place where
  | path
  | query
  deriving Repr, DecidableEq

def Place.name : Place → String
  | .path => "path"
  | .query => "query"

structure Parameter where
  name : String
  place : Place
  description : Json
  required : Bool
  schema : ValueSchema
  example? : Option String
  deriving Repr

namespace Parameter

/-- The parameter in the path; an entity without a declared key is found by an integer. -/
def ofKey (entity : Entity) : Parameter where
  name := "id"
  place := .path
  description := .string ("ID of " ++ entity.name)
  required := true
  schema :=
    match entity.field? entity.primaryKey with
    | some field => ValueSchema.of field
    | none => ⟨.integer, some .int64⟩
  example? := none

def ofSearch (field : Field) : Parameter where
  name := DtoProperty.searchKey field
  place := .query
  description := describe field
  required := false
  schema :=
    match field.surface with
    | .boolean => ⟨.boolean, none⟩
    | .string | .number => ⟨.string, none⟩
  example? :=
    match field.surface with
    | .number => some (Comparison.text ⟨.eq, [1]⟩)
    | .string | .boolean => none

/-- In the path the description comes before the requirement, in the query after it. -/
def toJson (p : Parameter) : Json :=
  let description := ("description", p.description)
  let required := ("required", Json.bool p.required)
  .object <|
    [("name", .string p.name), ("in", .string p.place.name)]
      ++ (match p.place with
        | .path => [description, required]
        | .query => [required, description])
      ++ [("schema", p.schema.toJson)]
      ++ (p.example?.map fun text => ("example", .string text)).toList

end Parameter

inductive Verb where
  | get
  | post
  | put
  | patch
  | delete
  deriving Repr, DecidableEq

def Verb.name : Verb → String
  | .get => "get"
  | .post => "post"
  | .put => "put"
  | .patch => "patch"
  | .delete => "delete"

/-- What an operation answers with: a status, a description, and the schema of the content if any. -/
structure Response where
  status : String
  description : String
  schema : Option Json

def Response.toJson (r : Response) : Json :=
  .object <|
    ("description", .string r.description)
      :: (r.schema.map fun s => ("content", jsonContent [("schema", s)])).toList

structure Operation where
  verb : Verb
  tag : String
  summary : String
  operationId : String
  parameters : Option (List Parameter)
  body : Option (DtoKind × String)
  responses : List Response

/-- A request body refers to the schema of its class and shows the example. -/
def requestBody (sample : Json) (kind : DtoKind) (entity : String) : Json :=
  .object [("content",
    jsonContent [("schema", reference (Dto.nameOf kind entity)), ("example", sample)])]

def Operation.toJson (sample : Json) (o : Operation) : Json :=
  .object <|
    [("tags", .array [.string o.tag]), ("summary", .string o.summary),
     ("operationId", .string o.operationId)]
      ++ (o.parameters.map fun ps => ("parameters", .array (ps.map Parameter.toJson))).toList
      ++ (o.body.map fun (kind, entity) => ("requestBody", requestBody sample kind entity)).toList
      ++ [("responses", .object (o.responses.map fun r => (r.status, r.toJson)))]

structure PathItem where
  path : String
  operations : List Operation

def PathItem.toJson (sample : Json) (p : PathItem) : Json :=
  .object (p.operations.map fun o => (o.verb.name, o.toJson sample))

def entitySchema (entity : String) : String := entity ++ "Entity"

def basePath (names : Names) : String := "/" ++ names.kebabPlural

def notFound (names : Names) : Response := ⟨"404", names.model ++ " not found", none⟩

def one (names : Names) (status description : String) : Response :=
  ⟨status, description, some (reference (entitySchema names.model))⟩

def many (names : Names) : Response :=
  ⟨"200", "List of " ++ names.plural, some (listOf (reference (entitySchema names.model)))⟩

def collection (names : Names) : PathItem where
  path := basePath names
  operations := [
    { verb := .get
      tag := names.model
      summary := "Get all " ++ names.plural
      operationId := "get" ++ names.plural
      parameters := some []
      body := none
      responses := [many names] },
    { verb := .post
      tag := names.model
      summary := "Create a new " ++ names.model
      operationId := "create" ++ names.model
      parameters := none
      body := some (.create, names.model)
      responses := [one names "201" ("Created " ++ names.model)] }]

def search (names : Names) (entity : Entity) : PathItem where
  path := basePath names ++ "/search"
  operations := [
    { verb := .get
      tag := names.model
      summary := "Get " ++ names.plural ++ " by search"
      operationId := "search" ++ names.plural
      parameters := some (entity.fields.map Parameter.ofSearch)
      body := none
      responses := [many names] }]

def single (names : Names) (entity : Entity) : PathItem where
  path := basePath names ++ "/\x7bid\x7d"
  operations :=
    let key := Parameter.ofKey entity
    [{ verb := .get
       tag := names.model
       summary := "Get " ++ names.model ++ " by ID"
       operationId := "get" ++ names.model ++ "ById"
       parameters := some [key]
       body := none
       responses := [one names "200" (names.model ++ " found"), notFound names] },
     { verb := .put
       tag := names.model
       summary := "Update " ++ names.model ++ " by ID"
       operationId := "update" ++ names.model
       parameters := some [key]
       body := some (.update, names.model)
       responses := [one names "200" (names.model ++ " updated"), notFound names] },
     { verb := .patch
       tag := names.model
       summary := "Patch " ++ names.model ++ " by ID"
       operationId := "patch" ++ names.model
       parameters := some [key]
       body := some (.update, names.model)
       responses := [one names "200" (names.model ++ " updated"), notFound names] },
     { verb := .delete
       tag := names.model
       summary := "Delete " ++ names.model ++ " by ID"
       operationId := "delete" ++ names.model
       parameters := some [key]
       body := none
       responses := [⟨"204", names.model ++ " deleted", none⟩, notFound names] }]

def pathItems (entity : Entity) : List PathItem :=
  let names := Names.ofModel entity.name
  [collection names, search names entity, single names entity]

def dtoSchema (entity : Entity) (kind : DtoKind) : String × Json :=
  (Dto.nameOf kind entity.name,
   .object [("type", .string "object"),
    ("description", .string (kind.word ++ " " ++ entity.name ++ " DTO")),
    ("properties", properties entity)])

def schemas (entity : Entity) : List (String × Json) :=
  (entitySchema entity.name,
   .object [("type", .string "object"), ("description", .string (entity.name ++ " entity")),
    ("properties", properties entity),
    ("required", .array ((required entity).map .string))])
  :: [DtoKind.create, .update, .search].map (dtoSchema entity)

/-- What one entity contributes to the document. -/
def fragment (entity : Entity) : Json :=
  .object [
    ("paths", .object ((pathItems entity).map fun p => (p.path, p.toJson (sample entity)))),
    ("components", .object [("schemas", .object (schemas entity))])]

end EntityForge.OpenApi
