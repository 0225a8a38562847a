import EntityForge.Json.Printer
import EntityForge.Surface.Subject
import EntityForge.TypeScript

/-!
Drizzle tables and the relations between them.
-/

namespace EntityForge.Drizzle

/-- The function that builds a column. -/
inductive Builder where
  | serial
  | boundedText (length : Nat)
  | plain (dataType : DataType)
  deriving Repr, DecidableEq

def Builder.of (field : Field) : Builder :=
  if field.isSerial then .serial
  else
    match field.dataType, field.maxLength with
    | .string, some length => .boundedText length
    | dataType, _ => .plain dataType

def Builder.text (name : String) : Builder → String
  | .serial => s!"serial(\"{name}\")"
  | .boundedText length => s!"varchar(\"{name}\", \x7b length: {length} \x7d)"
  | .plain dataType => dataType.drizzle ++ s!"(\"{name}\")"

structure Column where
  name : String
  builder : Builder
  primaryKey : Bool
  notNull : Bool
  unique : Bool
  default? : Option DefaultValue
  deriving Repr, DecidableEq

/-- A primary key is never null, so it does not say so. -/
def Column.of (field : Field) : Column where
  name := field.name
  builder := Builder.of field
  primaryKey := field.primaryKey
  notNull := field.required && !field.primaryKey
  unique := field.unique
  default? := field.default?

/-- Numbers are written out in full, without an exponent. -/
def floatLayout : FloatLayout := ⟨.up, none, false⟩

def literal : DefaultValue → String
  | .null => "null"
  | .now => ""
  | .flag value => toString value
  | .int value => toString value
  | .float value => floatLayout.text value
  | .text value => String.ofList (Json.quote value)

def defaultText : Option DefaultValue → String
  | none => ""
  | some .now => ".defaultNow()"
  | some value => ".default(" ++ literal value ++ ")"

def Column.text (c : Column) : String :=
  "  " ++ c.name ++ ": " ++ c.builder.text c.name
    ++ (if c.primaryKey then ".primaryKey()" else "")
    ++ (if c.notNull then ".notNull()" else "")
    ++ (if c.unique then ".unique()" else "")
    ++ defaultText c.default? ++ ",\n"

/-- What a table declares beside its columns. -/
inductive Extra where
  | index (unique : Bool) (fields : List String)
  | minLength (field : String) (least : Nat)
  deriving Repr, DecidableEq

def Extra.text (table : String) : Extra → String
  | .index unique fields =>
    let builder := if unique then "uniqueIndex" else "index"
    let name := "_".intercalate fields
    let columns := ", ".intercalate (fields.map ("table." ++ ·))
    s!"  {builder}(\"{table}_{name}_idx\").on({columns}),\n"
  | .minLength field least =>
    s!"  check(\"{table}_{field}_min_length\", sql`char_length($\x7btable.{field}\x7d) >= {least}`),\n"

structure Table where
  binding : String
  name : String
  columns : List Column
  extras : List Extra
  deriving Repr, DecidableEq

namespace Table

def of (subject : Subject) : Table where
  binding := subject.names.tableBinding
  name := subject.entity.tableName
  columns := subject.entity.fields.map Column.of
  extras := (subject.entity.indexes.map fun i => .index i.unique i.fields)
    ++ subject.entity.fields.filterMap fun f => f.minLength.map (Extra.minLength f.name)

def declaration (table : Table) : TypeScript.Declaration :=
  TypeScript.constant table.binding <|
    s!"pgTable(\"{table.name}\", \x7b\n" ++ String.join (table.columns.map Column.text)
      ++ (if table.extras.isEmpty then "\x7d);\n"
          else "\x7d, (table) => [\n" ++ String.join (table.extras.map (Extra.text table.name))
            ++ "]);\n")

end Table

/-- The table on the other side: the join table when there is one. A link to one row names the columns
that are compared. -/
inductive Link where
  | many (table : String)
  | one (table ownColumn column : String)
  deriving Repr, DecidableEq

structure RelationEntry where
  name : String
  link : Link
  deriving Repr, DecidableEq

def tableBinding (entity : String) : String := (Names.ofModel entity).tableBinding

def RelationEntry.of (accessor : Accessor) : RelationEntry where
  name := accessor.name
  link :=
    match accessor.association with
    | .joined through _ _ _ => .many (tableBinding through)
    | .direct lookup =>
      if accessor.kind.isMany then .many (tableBinding lookup.entity)
      else .one (tableBinding lookup.entity) lookup.parentKey lookup.column

def RelationEntry.text (owner : String) (e : RelationEntry) : String :=
  let link :=
    match e.link with
    | .many table => s!"many({table}, \x7b "
    | .one table ownColumn column =>
      s!"one({table}, \x7b fields: [{owner}.{ownColumn}], references: [{table}.{column}], "
  s!"  {e.name}: {link}relationName: \"{e.name}\" \x7d),\n"

structure Relations where
  table : String
  entries : List RelationEntry
  deriving Repr, DecidableEq

namespace Relations

/-- An entity without relations has no such block. -/
def of? (subject : Subject) : Option Relations :=
  if subject.accessors.isEmpty then none
  else some ⟨subject.names.tableBinding, subject.accessors.map RelationEntry.of⟩

def declaration (r : Relations) : TypeScript.Declaration :=
  TypeScript.constant (r.table ++ "Relations") <|
    s!"relations({r.table}, (\x7b one, many \x7d) => (\x7b\n"
      ++ String.join (r.entries.map (RelationEntry.text r.table)) ++ "\x7d));\n"

end Relations

end EntityForge.Drizzle
