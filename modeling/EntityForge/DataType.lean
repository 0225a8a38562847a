/-!
The types a field can have, and what each target calls them.

Every table is a match over all types, so no type lacks an entry; only the name in a document can be
unknown.
-/

namespace EntityForge

inductive DataType where
  | string
  | text
  | integer
  | float
  | boolean
  | date
  | datetime
  | time
  | uuid
  | json
  | jsonb
  deriving Repr, DecidableEq

/-- The three kinds of value that typed interfaces tell apart. -/
inductive SurfaceType where
  | string
  | number
  | boolean
  deriving Repr, DecidableEq

def SurfaceType.name : SurfaceType → String
  | .string => "string"
  | .number => "number"
  | .boolean => "boolean"

inductive GraphqlScalar where
  | int
  | float
  | boolean
  | string
  deriving Repr, DecidableEq

namespace GraphqlScalar

def name : GraphqlScalar → String
  | .int => "Int"
  | .float => "Float"
  | .boolean => "Boolean"
  | .string => "String"

/-- The object that stands for the scalar in a type built at run time. -/
def runtime (scalar : GraphqlScalar) : String := "GraphQL" ++ scalar.name

end GraphqlScalar

namespace DataType

def all : List DataType :=
  [.string, .text, .integer, .float, .boolean, .date, .datetime, .time, .uuid, .json, .jsonb]

def name : DataType → String
  | .string => "string"
  | .text => "text"
  | .integer => "integer"
  | .float => "float"
  | .boolean => "boolean"
  | .date => "date"
  | .datetime => "datetime"
  | .time => "time"
  | .uuid => "uuid"
  | .json => "json"
  | .jsonb => "jsonb"

/-- Two further names of the floating type are accepted. -/
def ofName? (name : String) : Option DataType :=
  if name = "double" ∨ name = "number" then some .float
  else all.find? fun t => t.name == name

def isTemporal : DataType → Bool
  | .date | .datetime | .time => true
  | _ => false

/-- A date or a time of day surfaces as a boolean. -/
def surface : DataType → SurfaceType
  | .string | .text | .datetime | .uuid | .json | .jsonb => .string
  | .integer | .float => .number
  | .boolean | .date | .time => .boolean

def sequelize : DataType → String
  | .string => "STRING"
  | .text => "TEXT"
  | .integer => "INTEGER"
  | .float => "FLOAT"
  | .boolean => "BOOLEAN"
  | .date => "DATEONLY"
  | .datetime => "DATE"
  | .time => "TIME"
  | .uuid => "UUID"
  | .json => "JSON"
  | .jsonb => "JSONB"

def drizzle : DataType → String
  | .string => "varchar"
  | .text => "text"
  | .integer => "integer"
  | .float => "real"
  | .boolean => "boolean"
  | .date => "date"
  | .datetime => "timestamp"
  | .time => "time"
  | .uuid => "uuid"
  | .json => "json"
  | .jsonb => "jsonb"

def graphql : DataType → GraphqlScalar
  | .integer => .int
  | .float => .float
  | .boolean => .boolean
  | _ => .string

/-- The annotation where structured values are told apart from text. -/
def display : DataType → String
  | .integer | .float => "number"
  | .boolean => "boolean"
  | .json | .jsonb => "Record<string, unknown>"
  | .string | .text | .date | .datetime | .time | .uuid => "string"

theorem ofName?_name (t : DataType) : ofName? t.name = some t := by
  cases t <;> decide

end DataType

/-- The tables, by the names that diagnostics give them. -/
inductive TypeTable where
  | surface
  | sequelize
  | drizzle
  | graphqlScalar
  | graphqlRuntime
  | display
  deriving Repr, DecidableEq

namespace TypeTable

def all : List TypeTable :=
  [.surface, .sequelize, .drizzle, .graphqlScalar, .graphqlRuntime, .display]

def name : TypeTable → String
  | .surface => "surface"
  | .sequelize => "sequelize"
  | .drizzle => "drizzle"
  | .graphqlScalar => "graphql scalar"
  | .graphqlRuntime => "graphql runtime"
  | .display => "display"

end TypeTable

end EntityForge
