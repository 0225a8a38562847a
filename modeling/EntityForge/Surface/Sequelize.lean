import EntityForge.Surface.Subject
import EntityForge.TypeScript

/-!
Sequelize models and the associations between them.

Associations are kept apart from the models, so that every model can be defined before one of them is
associated.
-/

namespace EntityForge.Sequelize

structure Column where
  name : String
  dataType : DataType
  allowNull : Bool
  primaryKey : Bool
  autoIncrement : Bool
  unique : Bool
  deriving Repr, DecidableEq

def Column.of (field : Field) : Column where
  name := field.name
  dataType := field.dataType
  allowNull := !field.required
  primaryKey := field.primaryKey
  autoIncrement := field.isSerial
  unique := field.unique

def Column.text (c : Column) : String :=
  let typeName := c.dataType.sequelize
  let allowNull := toString c.allowNull
  s!"  {c.name}: \x7b type: DataTypes.{typeName}, allowNull: {allowNull}"
    ++ (if c.primaryKey then ", primaryKey: true" else "")
    ++ (if c.autoIncrement then ", autoIncrement: true" else "")
    ++ (if c.unique then ", unique: true" else "")
    ++ " \x7d,\n"

def inQuotes (s : String) : String := "\"" ++ s ++ "\""

def indexText (index : Index) : String :=
  let fields := ", ".intercalate (index.fields.map inQuotes)
  let unique := toString index.unique
  s!"    \x7b unique: {unique}, fields: [{fields}] \x7d,\n"

structure Model where
  name : String
  table : String
  columns : List Column
  indexes : List Index
  deriving Repr, DecidableEq

namespace Model

def of (subject : Subject) : Model where
  name := subject.entity.name
  table := subject.entity.tableName
  columns := subject.entity.fields.map Column.of
  indexes := subject.entity.indexes

def declaration (model : Model) : TypeScript.Declaration :=
  TypeScript.constant model.name <|
    s!"sequelize.define(\"{model.table}\", \x7b\n" ++ String.join (model.columns.map Column.text)
      ++ (if model.indexes.isEmpty then "\x7d);\n"
          else "\x7d, \x7b\n  indexes: [\n" ++ String.join (model.indexes.map indexText)
            ++ "  ],\n\x7d);\n")

end Model

inductive Method where
  | hasOne
  | hasMany
  | belongsTo
  | belongsToMany
  deriving Repr, DecidableEq

def Method.name : Method → String
  | .hasOne => "hasOne"
  | .hasMany => "hasMany"
  | .belongsTo => "belongsTo"
  | .belongsToMany => "belongsToMany"

/-- One statement that associates two models. A key that is left out is the primary key of its side. -/
structure Association where
  source : String
  method : Method
  target : String
  name : String
  through : Option String
  foreignKey : String
  otherKey : Option String
  sourceKey : Option String
  targetKey : Option String
  deriving Repr, DecidableEq

namespace Association

/-- Only an association of many to many may go through a join model, whatever the relation says. -/
def of (entity : Entity) (accessor : Accessor) : Association :=
  match accessor.association with
  | .joined through lookup joinColumn _ =>
    { source := entity.name
      method := .belongsToMany
      target := accessor.target
      name := accessor.name
      through := some through
      foreignKey := lookup.column
      otherKey := some joinColumn
      sourceKey := if lookup.parentKey = entity.primaryKey then none else some lookup.parentKey
      targetKey := none }
  | .direct lookup =>
    match accessor.kind with
    | .hasOne | .hasMany =>
      { source := entity.name
        method := if accessor.kind.isMany then .hasMany else .hasOne
        target := accessor.target
        name := accessor.name
        through := none
        foreignKey := lookup.column
        otherKey := none
        sourceKey := some lookup.parentKey
        targetKey := none }
    | .belongsToOne | .belongsToMany =>
      { source := entity.name
        method := if accessor.kind.isMany then .belongsToMany else .belongsTo
        target := accessor.target
        name := accessor.name
        through := none
        foreignKey := lookup.parentKey
        otherKey := none
        sourceKey := none
        targetKey := some lookup.column }

/-- The options as written: names are quoted, and the join model is referred to by its name. -/
def options (a : Association) : List (String × String) :=
  [("as", inQuotes a.name)]
    ++ (a.through.map fun through => ("through", through)).toList
    ++ [("foreignKey", inQuotes a.foreignKey)]
    ++ (a.otherKey.map fun key => ("otherKey", inQuotes key)).toList
    ++ (a.sourceKey.map fun key => ("sourceKey", inQuotes key)).toList
    ++ (a.targetKey.map fun key => ("targetKey", inQuotes key)).toList

def text (a : Association) : String :=
  let options := ", ".intercalate (a.options.map fun (key, value) => key ++ ": " ++ value)
  let method := a.method.name
  s!"{a.source}.{method}({a.target}, \x7b {options} \x7d);\n"

end Association

def associations (subject : Subject) : List Association :=
  subject.accessors.map (Association.of subject.entity)

end EntityForge.Sequelize
