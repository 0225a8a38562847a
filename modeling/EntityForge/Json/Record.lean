import EntityForge.Json.Reader

/-!
Records: values with a fixed set of named fields.

A record is written as an object, whose members may come in any order and among others, or as an array
of its fields in their declared order. A field that is not required keeps the value it has in the
blank record.
-/

namespace EntityForge.Json

structure RecordField (α : Type) where
  key : String
  required : Bool
  read : Nat → Node → α → Read α

structure Record (α : Type) where
  name : String
  blank : α
  fields : List (RecordField α)

namespace RecordField

def of {α β : Type} (key : String) (required : Bool) (read : Nat → Node → Read β)
    (set : α → β → α) : RecordField α :=
  ⟨key, required, fun room node record => do return set record (← read room node)⟩

end RecordField

namespace Record

variable {α : Type}

def field? (r : Record α) (key : String) : Option (RecordField α) :=
  r.fields.find? fun f => f.key == key

/-- Reads members in the order of the text; `seen` are the fields met so far. -/
def readMembers (r : Record α) (room : Nat) :
    List String → α → List (Quoted × Node) → Read (List String × α)
  | seen, record, [] => .ok (seen, record)
  | seen, record, (key, value) :: members => do
    let name ← key.read
    match r.field? name with
    | none =>
      value.skip
      r.readMembers room seen record members
    | some field =>
      if seen.contains name then mismatch (.repeatedField name)
      else
        let next ← field.read room value record
        r.readMembers room (name :: seen) next members

/-- The first required field, in declared order, that was not met. -/
def missing? (r : Record α) (seen : List String) : Option String :=
  (r.fields.find? fun f => f.required && !seen.contains f.key).map RecordField.key

/-- Reads items against the fields that are left; `present` counts the items so far. -/
def readItems (r : Record α) (room : Nat) (tear : Option Tear) :
    Nat → α → List (RecordField α) → List Node → Read α
  | _, record, [], [] => do
    checkEnd tear
    return record
  | _, _, [], _ :: _ => malformed
  | present, record, field :: fields, item :: items => do
    let next ← field.read room item record
    r.readItems room tear (present + 1) next fields items
  | present, record, field :: fields, [] => do
    checkEnd tear
    if field.required then mismatch (.tooFewItems present r.name r.fields.length)
    else r.readItems room tear (present + 1) record fields []

def read (r : Record α) (room : Nat) (node : Node) : Read α :=
  match node with
  | .object members tear =>
    match room with
    | 0 => malformed
    | inner + 1 => do
      let (seen, record) ← r.readMembers inner [] r.blank members
      checkEnd tear
      match r.missing? seen with
      | some key => mismatch (.missingField key)
      | none => return record
  | .array items tear =>
    match room with
    | 0 => malformed
    | inner + 1 => r.readItems inner tear 0 r.blank r.fields items
  | node => node.refuse (.record r.name)

end Record

end EntityForge.Json
