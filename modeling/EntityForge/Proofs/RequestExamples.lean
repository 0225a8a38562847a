import EntityForge.Proofs.SchemaReferences
import EntityForge.Proofs.SearchKeys

/-!
The examples of request bodies and the schemas that they illustrate.

A body refers to the schema of a class and shows one example, made from the same fields in the same order. Type and
example of a field are not found in one way: the type goes by the data type alone, and the example is a moment
wherever a field is one, be it by its data type or only by the ending of its name. Main statements:
`OpenApi.hasType_exampleValue_iff` and `examples_conform_iff`.
-/

namespace EntityForge

/-- A value is of the type that a schema calls so. -/
def Json.HasType : Json → String → Prop
  | .string _, type => type = "string"
  | .number _, type => type = "integer" ∨ type = "number"
  | .bool _, type => type = "boolean"
  | _, _ => False

/-- The name of a field makes it a moment, but its data type makes it a number or a flag. -/
def Field.IsMomentByName (field : Field) : Prop :=
  ['_', 'a', 't'] <:+ field.name.toList ∧ field.dataType ∈ [DataType.integer, .float, .boolean]

namespace OpenApi

/-- The bodies of all requests of a document. -/
def bodies (document : Json) : List Json := (PublishedApi.operations document).filterMap (Json.get? · "requestBody")

/-- What a body shows: an example, and the properties of the schema in the document that it refers to. -/
structure Shows (document body properties shown : Json) : Prop where
  schema : ∃ name, body.member? ["content", "application/json", "schema", "$ref"] =
      some (.string (schemaRoot ++ name)) ∧
    document.member? ["components", "schemas", name, "properties"] = some properties
  sample : body.member? ["content", "application/json", "example"] = some shown

theorem bodies_fragment (entity : Entity) : bodies (fragment entity) =
    [DtoKind.create, .update, .update].map fun kind => requestBody (sample entity) kind entity.name := rfl

theorem shows_fragment (entity : Entity) :
    ∀ body ∈ bodies (fragment entity), Shows (fragment entity) body (properties entity) (sample entity) := by
  rw [bodies_fragment]
  refine List.forall_mem_map.2 fun kind _ => ⟨⟨Dto.nameOf kind entity.name, rfl, ?_⟩, rfl⟩
  have hmem : dtoSchema entity kind ∈ schemas entity :=
    List.mem_cons_of_mem _ (List.mem_map_of_mem (by cases kind <;> decide))
  exact member?_schema hmem ["properties"]

variable {entity : Entity} {field : Field}

theorem get?_ofFields (hnames : (entity.fields.map Field.name).Nodup) (hfield : field ∈ entity.fields)
    (value : Field → Json) :
    Json.get? (.object (Entries.ofList (entity.fields.map fun field => (field.name, value field)))) field.name =
      some (value field) := by
  have hkeys : ((entity.fields.map fun field => (field.name, value field)).map Prod.fst).Nodup := by
    rwa [List.map_map]
  rw [Json.get?, Entries.ofList_of_nodup hkeys, Entries.get?_eq_some_iff hkeys]
  exact List.mem_map_of_mem hfield

theorem member?_properties (hnames : (entity.fields.map Field.name).Nodup) (hfield : field ∈ entity.fields) :
    (properties entity).member? [field.name, "type"] = some (.string (valueType field).name) := by
  have hproperty : (properties entity).get? field.name = some (property field) := get?_ofFields hnames hfield property
  rw [Json.member?, hproperty, Option.bind_some]
  rfl

theorem hasType_string_iff (s : String) (type : ValueType) :
    (Json.string s).HasType type.name ↔ type = .string := by
  change type.name = "string" ↔ type = .string
  cases type <;> decide

theorem valueType_ne_string_iff (field : Field) :
    valueType field ≠ .string ↔ field.dataType ∈ [DataType.integer, .float, .boolean] := by
  unfold valueType
  cases field.dataType <;> decide

/-- A number or a flag can be a moment by its name only. -/
theorem isTimestamp_iff (h : valueType field ≠ .string) :
    field.isTimestamp = true ↔ ['_', 'a', 't'] <:+ field.name.toList := by
  have htemporal : field.dataType.isTemporal = false := by
    revert h
    unfold valueType
    cases field.dataType <;> decide
  rw [Field.isTimestamp, htemporal, Bool.false_or, List.isSuffixOf_iff_suffix]

theorem exampleValue_of_moment (h : field.isTimestamp = true) :
    exampleValue field = .string "2024-01-01T00:00:00Z" := if_pos h

theorem hasType_exampleValue (h : field.isTimestamp = false) : (exampleValue field).HasType (valueType field).name := by
  unfold exampleValue
  rw [if_neg (Bool.eq_false_iff.1 h)]
  cases valueType field with
  | string => exact rfl
  | integer => exact .inl rfl
  | number => exact .inr rfl
  | boolean => exact rfl

/-- An example is of the type of its property unless its field is a moment by its name only. -/
theorem hasType_exampleValue_iff (field : Field) :
    (exampleValue field).HasType (valueType field).name ↔ ¬field.IsMomentByName := by
  rw [Field.IsMomentByName, ← valueType_ne_string_iff]
  cases hmoment : field.isTimestamp with
  | false =>
    refine iff_of_true (hasType_exampleValue hmoment) ?_
    rintro ⟨hname, htype⟩
    exact Bool.noConfusion (hmoment.symm.trans ((isTimestamp_iff htype).2 hname))
  | true =>
    rw [exampleValue_of_moment hmoment, hasType_string_iff]
    constructor
    · rintro hstring ⟨-, htype⟩
      exact htype hstring
    · intro hplain
      by_contra htype
      exact hplain ⟨(isTimestamp_iff htype).1 hmoment, htype⟩

end OpenApi

section Loaded

variable {doc : Document} {schema : Schema} {subject : Subject}

/-- Every body shows an example with the names of its properties in their order, and each value in it is of the type
of its property, but for the fields that are moments by their name only: of these the example is a text. -/
theorem examples_conform_iff (hkeyed : doc.Keyed) (hload : Schema.load doc = .ok schema)
    (hentity : subject.entity ∈ schema.entities) :
    ∃ document, Json.parse (Surface.openApi.text subject) = .ok document ∧ (OpenApi.bodies document).length = 3 ∧
      ∀ body ∈ OpenApi.bodies document, ∃ properties shown, OpenApi.Shows document body properties shown ∧
        shown.keys = properties.keys ∧ properties.keys = subject.entity.fields.map Field.name ∧
        ∀ field ∈ subject.entity.fields, ∃ type value,
          properties.member? [field.name, "type"] = some (.string type) ∧ shown.get? field.name = some value ∧
          (value.HasType type ↔ ¬field.IsMomentByName) ∧
          (field.IsMomentByName → value = .string "2024-01-01T00:00:00Z") := by
  have hnames := (Schema.keyed_of_load hkeyed hload).fields _ hentity
  have hproperties := OpenApi.keys_ofFields hnames OpenApi.property
  have hsample := OpenApi.keys_ofFields hnames OpenApi.exampleValue
  refine ⟨_, PublishedApi.parse_openApi subject, by rw [OpenApi.bodies_fragment]; rfl, fun body hbody =>
    ⟨_, _, OpenApi.shows_fragment _ body hbody, hsample.trans hproperties.symm, hproperties, fun field hfield =>
      ⟨_, _, OpenApi.member?_properties hnames hfield, OpenApi.get?_ofFields hnames hfield OpenApi.exampleValue,
        OpenApi.hasType_exampleValue_iff field, ?_⟩⟩⟩
  rintro ⟨hname, htype⟩
  have hplain : OpenApi.valueType field ≠ .string := (OpenApi.valueType_ne_string_iff field).2 htype
  exact OpenApi.exampleValue_of_moment ((OpenApi.isTimestamp_iff hplain).2 hname)

/-- The key of a person is no moment. -/
theorem examples_conform_for_people :
    people.document.Keyed ∧ Schema.load people.document = .ok people ∧
      ∃ subject document, subject.entity ∈ people.entities ∧
        Json.parse (Surface.openApi.text subject) = .ok document ∧ (OpenApi.bodies document).length = 3 ∧
        ∀ body ∈ OpenApi.bodies document, ∃ properties shown type value,
          OpenApi.Shows document body properties shown ∧ shown.keys = ["id"] ∧ properties.keys = ["id"] ∧
          properties.member? ["id", "type"] = some (.string type) ∧ shown.get? "id" = some value ∧
          value.HasType type := by
  let subject := Subject.of .standard people.resolved[0]
  have hentity : subject.entity ∈ people.entities := by decide
  have hfield : people.entities[0].fields[0] ∈ subject.entity.fields := by decide
  have hplain : ¬people.entities[0].fields[0].IsMomentByName := fun h => absurd h.1 (by decide)
  obtain ⟨document, hparse, hlength, hall⟩ := examples_conform_iff people_keyed people_load hentity
  refine ⟨people_keyed, people_load, subject, document, hentity, hparse, hlength, fun body hbody => ?_⟩
  obtain ⟨properties, shown, hshows, hkeys, hnames, hvalues⟩ := hall body hbody
  obtain ⟨type, value, htype, hvalue, hhas, -⟩ := hvalues _ hfield
  exact ⟨properties, shown, type, value, hshows, hkeys.trans hnames, hnames, htype, hvalue, hhas.2 hplain⟩

end Loaded

/-- A document with a model that has a number which is called as a moment is. -/
def visits.lines : List String := [
  "\x7b\"models\": \x7b\"Visit\": \x7b\"tableName\": \"visits\", \"fields\": \x7b",
  "\"id\": \x7b\"dataType\": \"integer\", \"primaryKey\": true\x7d, ",
  "\"seen_at\": \x7b\"dataType\": \"integer\"\x7d\x7d\x7d\x7d\x7d"]

def visits.text : String := String.join visits.lines

def visits : Schema where
  entities := [
    { name := "Visit"
      tableName := "visits"
      fields := [
        ⟨"id", .integer, false, true, false, none, none, none, none⟩,
        ⟨"seen_at", .integer, false, false, false, none, none, none, none⟩]
      indexes := []
      relations := [] }]
  api := .standard

theorem visits_ofText : Schema.ofText visits.text = .ok visits := by
  rw [Schema.ofText, Document.parse, Json.readText, Json.Node.ofText, Json.lex, visits.text, String.toList_join]
  decide +kernel

def visits.subject : Subject := .of .standard ⟨visits.entities[0], []⟩

/-- The number of a visit is shown as a text. -/
theorem example_differs_for_visits :
    Schema.ofText visits.text = .ok visits ∧ Schema.subjects visits .standard = .ok [visits.subject] ∧
      ∃ document body properties shown value, Json.parse (Surface.openApi.text visits.subject) = .ok document ∧
        body ∈ OpenApi.bodies document ∧ OpenApi.Shows document body properties shown ∧
        properties.member? ["seen_at", "type"] = some (.string "integer") ∧
        shown.get? "seen_at" = some value ∧ ¬value.HasType "integer" := by
  have hbody : OpenApi.requestBody (OpenApi.sample visits.subject.entity) .create "Visit" ∈
      OpenApi.bodies (OpenApi.fragment visits.subject.entity) := List.mem_cons_self
  have hnames : (visits.subject.entity.fields.map Field.name).Nodup := by decide
  have hfield : visits.entities[0].fields[1] ∈ visits.subject.entity.fields := by decide
  have hvalue : OpenApi.exampleValue visits.entities[0].fields[1] = .string "2024-01-01T00:00:00Z" :=
    OpenApi.exampleValue_of_moment (by decide)
  refine ⟨visits_ofText, by decide, _, _, _, _, _, PublishedApi.parse_openApi _, hbody,
    OpenApi.shows_fragment _ _ hbody, OpenApi.member?_properties hnames hfield,
    OpenApi.get?_ofFields hnames hfield OpenApi.exampleValue, ?_⟩
  rw [hvalue]
  exact fun h => absurd h (by decide : "integer" ≠ "string")

end EntityForge
