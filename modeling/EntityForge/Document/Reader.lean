import EntityForge.Document

/-!
How a document is written as JSON: the record of each of its parts.
-/

namespace EntityForge

open Json (Node Read Record RecordField)

namespace DefaultDecl

/-- An integer beyond 64 signed bits counts as a number; arrays and objects are no default. -/
def ofJson? : Json → Option DefaultDecl
  | .null => some .null
  | .bool value => some (.flag value)
  | .number (.int value) =>
    if value ≤ Int64.maxValue.toInt then some (.int value) else some (.float (Binary64.ofInt value))
  | .number (.float value) => some (.float value)
  | .string value => some (.text value)
  | .array _ | .object _ => none

def read (room : Nat) (node : Node) : Read DefaultDecl := do
  match ofJson? (← node.readJson room) with
  | some value => return value
  | none => Json.mismatch .noDefaultForm

end DefaultDecl

namespace Document

def text : Nat → Node → Read String := fun _ => Node.readText

def flag : Nat → Node → Read Bool := fun _ => Node.readFlag

def optional {α : Type} (read : Nat → Node → Read α) (room : Nat) : Node → Read (Option α) :=
  Node.readOptional (read room)

def count : Nat → Node → Read Nat := fun _ => Node.readCount

def referenceRecord : Record String where
  name := "ReferenceDef"
  blank := ""
  fields := [RecordField.of "model" true text fun _ v => v]

def fieldRecord : Record FieldDecl where
  name := "FieldDef"
  blank := ⟨"", false, false, false, none, none, none, none⟩
  fields := [
    RecordField.of "dataType" true text fun r v => { r with dataType := v },
    RecordField.of "required" false flag fun r v => { r with required := v },
    RecordField.of "primaryKey" false flag fun r v => { r with primaryKey := v },
    RecordField.of "unique" false flag fun r v => { r with unique := v },
    RecordField.of "minLength" false (optional count) fun r v => { r with minLength := v },
    RecordField.of "maxLength" false (optional count) fun r v => { r with maxLength := v },
    RecordField.of "defaultValue" false DefaultDecl.read fun r v => { r with default? := some v },
    RecordField.of "references" false (optional referenceRecord.read)
      fun r v => { r with references := v }]

def indexRecord : Record IndexDecl where
  name := "IndexDef"
  blank := ⟨false, []⟩
  fields := [
    RecordField.of "unique" false flag fun r v => { r with unique := v },
    RecordField.of "fields" true (Node.readList text) fun r v => { r with fields := v }]

def modelRecord : Record ModelDecl where
  name := "ModelDef"
  blank := ⟨"", [], []⟩
  fields := [
    RecordField.of "tableName" true text fun r v => { r with tableName := v },
    RecordField.of "fields" false (Node.readEntries fieldRecord.read)
      fun r v => { r with fields := v },
    RecordField.of "indexes" false (Node.readList indexRecord.read)
      fun r v => { r with indexes := v }]

def relationRecord : Record RelationDecl where
  name := "RelationDef"
  blank := ⟨"", "", none, none, none⟩
  fields := [
    RecordField.of "alias" true text fun r v => { r with name := v },
    RecordField.of "foreignKey" true text fun r v => { r with foreignKey := v },
    RecordField.of "sourceKey" false (optional text) fun r v => { r with sourceKey := v },
    RecordField.of "targetKey" false (optional text) fun r v => { r with targetKey := v },
    RecordField.of "through" false (optional text) fun r v => { r with through := v }]

def relationBlockRecord : Record RelationBlock where
  name := "RelationshipDef"
  blank := ⟨[], [], [], []⟩
  fields := [
    RecordField.of "hasOne" false (Node.readEntries relationRecord.read)
      fun r v => { r with hasOne := v },
    RecordField.of "hasMany" false (Node.readEntries relationRecord.read)
      fun r v => { r with hasMany := v },
    RecordField.of "belongsToOne" false (Node.readEntries relationRecord.read)
      fun r v => { r with belongsToOne := v },
    RecordField.of "belongsToMany" false (Node.readEntries relationRecord.read)
      fun r v => { r with belongsToMany := v }]

def serverRecord : Record Server where
  name := "ServerDef"
  blank := ⟨"", ""⟩
  fields := [
    RecordField.of "url" true text fun r v => { r with url := v },
    RecordField.of "description" false text fun r v => { r with description := v }]

def apiRecord : Record ApiHeader where
  name := "ApiDef"
  blank := .standard
  fields := [
    RecordField.of "title" false text fun r v => { r with title := v },
    RecordField.of "description" false text fun r v => { r with description := v },
    RecordField.of "version" false text fun r v => { r with version := v },
    RecordField.of "servers" false (Node.readList serverRecord.read)
      fun r v => { r with servers := v }]

def record : Record Document where
  name := "Document"
  blank := ⟨none, [], .standard⟩
  fields := [
    RecordField.of "models" false (optional (Node.readEntries modelRecord.read))
      fun r v => { r with models := v },
    RecordField.of "relationships" false (Node.readEntries relationBlockRecord.read)
      fun r v => { r with relationships := v },
    RecordField.of "api" false apiRecord.read fun r v => { r with api := v }]

def parse (text : String) : Read Document := Json.readText record.read text

end Document

end EntityForge
