import EntityForge.Proofs.Independence
import EntityForge.Proofs.Operations

/-!
The keys that a search of an entity accepts.

The class of a search and the parameters of the search operation ask for a field under one key, which is the
field's name or, for a number, the name with an ending of its own. The schema of the class keeps the names as
they are, so it tells of other keys as soon as there is a number. And one field may be called what another one
is asked for by. Main statements: `queryNames_fragment`, `schemaKeys_fragment`, `search_described_iff` and
`searchKeys_nodup_iff`.
-/

namespace EntityForge

namespace Json

/-- What an array holds. -/
def items : Json → List Json
  | .array items => items
  | _ => []

/-- What is found is looked into further. -/
theorem member?_append {json value : Json} {keys : List String} (h : json.member? keys = some value)
    (more : List String) : json.member? (keys ++ more) = value.member? more := by
  induction keys generalizing json with
  | nil =>
    obtain rfl := Option.some.inj h
    rfl
  | cons key keys ih =>
    obtain ⟨first, hfirst, hrest⟩ := Option.bind_eq_some_iff.1 h
    rw [List.cons_append, member?, hfirst, Option.bind_some, ih hrest]

end Json

/-- What the properties of a class are called. -/
def Dto.keys (dto : Dto) : List String := dto.properties.map DtoProperty.name

namespace DtoProperty

variable {field other : Field} {fields : List Field}

theorem searchKey_of_number (h : field.surface = .number) : searchKey field = field.name ++ "_op" := by
  rw [searchKey, h]

theorem searchKey_of_ne_number (h : field.surface ≠ .number) : searchKey field = field.name := by
  unfold searchKey
  split
  · next hnumber => exact absurd hnumber h
  · rfl
  · rfl

theorem searchKey_eq_name_iff : searchKey field = field.name ↔ field.surface ≠ .number := by
  constructor
  · intro hkey hnumber
    rw [searchKey_of_number hnumber] at hkey
    simp [← String.toList_inj] at hkey
  · exact searchKey_of_ne_number

theorem map_searchKey_eq_iff :
    fields.map Field.name = fields.map searchKey ↔ ∀ field ∈ fields, field.surface ≠ .number := by
  rw [List.map_inj_left]
  exact forall₂_congr fun field _ => eq_comm.trans searchKey_eq_name_iff

/-- Fields with different names are asked for under one key only where one of them is a number and the other one
is called what this is asked for by. -/
theorem nodup_searchKeys_iff (hnames : (fields.map Field.name).Nodup) :
    (fields.map searchKey).Nodup ↔ ∀ number ∈ fields, number.surface = .number →
      ∀ other ∈ fields, other.surface ≠ .number → other.name ≠ number.name ++ "_op" := by
  rw [List.nodup_map_iff_inj_on (hnames.of_map _)]
  constructor
  · intro hinjective number hmem hnumber other hother hplain hname
    have hkey : searchKey number = searchKey other := by
      rw [searchKey_of_number hnumber, searchKey_of_ne_number hplain, hname]
    obtain rfl := hinjective number hmem other hother hkey
    exact hplain hnumber
  · intro happart field hfield other hother hkey
    have hname : field.name = other.name := by
      by_cases hnumber : field.surface = .number <;> by_cases hnumber' : other.surface = .number
      · rw [searchKey_of_number hnumber, searchKey_of_number hnumber'] at hkey
        simpa using hkey
      · rw [searchKey_of_number hnumber, searchKey_of_ne_number hnumber'] at hkey
        exact absurd hkey.symm (happart field hfield hnumber other hother hnumber')
      · rw [searchKey_of_ne_number hnumber, searchKey_of_number hnumber'] at hkey
        exact absurd hkey (happart other hother hnumber' field hfield hnumber)
      · rwa [searchKey_of_ne_number hnumber, searchKey_of_ne_number hnumber'] at hkey
    exact List.inj_on_of_nodup_map hnames hfield hother hname

end DtoProperty

open DtoProperty (searchKey)

namespace OpenApi

/-- What the parameters of the search operation of an entity are called. -/
def queryNames (document : Json) (entity : Entity) : Option (List (Option Json)) :=
  (document.member? ["paths", "/" ++ entity.directory ++ "/search", "get", "parameters"]).map fun parameters =>
    parameters.items.map (Json.get? · "name")

/-- What the properties in the schema of the search class of an entity are called. -/
def schemaKeys (document : Json) (entity : Entity) : Option (List String) :=
  (document.member? ["components", "schemas", Dto.nameOf .search entity.name, "properties"]).map Json.keys

variable {entity : Entity}

theorem keys_ofFields (hnames : (entity.fields.map Field.name).Nodup) (value : Field → Json) :
    Json.keys (.object (Entries.ofList (entity.fields.map fun field => (field.name, value field)))) =
      entity.fields.map Field.name := by
  rw [Json.keys, Entries.ofList_of_nodup, Entries.keys, List.map_map]
  · rfl
  · rwa [List.map_map]

theorem member?_schema {name : String} {value : Json} (h : (name, value) ∈ schemas entity)
    (more : List String) :
    (fragment entity).member? ("components" :: "schemas" :: name :: more) = value.member? more := by
  have hschema : (fragment entity).member? ["components", "schemas", name] = some value := by
    rwa [member?_fragment_schemas, Entries.get?_eq_some_iff (nodup_schemas entity)]
  exact Json.member?_append hschema more

theorem member?_path {item : PathItem} (h : item ∈ pathItems entity) (more : List String) :
    (fragment entity).member? ("paths" :: item.path :: more) =
      (item.toJson (sample entity)).member? more := by
  have hpath : (fragment entity).member? ["paths", item.path] = some (item.toJson (sample entity)) := by
    rw [member?_fragment_paths, Entries.get?_eq_some_iff (nodup_pathEntries entity)]
    exact List.mem_map_of_mem h
  exact Json.member?_append hpath more

theorem get?_name_toJson (parameter : Parameter) :
    parameter.toJson.get? "name" = some (.string parameter.name) := by
  simp [Parameter.toJson, Json.get?, Entries.get?]

theorem queryNames_fragment (entity : Entity) :
    queryNames (fragment entity) entity =
      some ((entity.fields.map searchKey).map fun key => some (.string key)) := by
  have hsearch : search (.ofModel entity.name) entity ∈ pathItems entity :=
    List.mem_cons_of_mem _ List.mem_cons_self
  have hparameters : (fragment entity).member?
      ["paths", "/" ++ entity.directory ++ "/search", "get", "parameters"] =
        some (.array ((entity.fields.map Parameter.ofSearch).map Parameter.toJson)) :=
    member?_path hsearch ["get", "parameters"]
  rw [queryNames, hparameters, Option.map_some, Json.items, List.map_map, List.map_map, List.map_map]
  exact congrArg some (List.map_congr_left fun field _ => get?_name_toJson (.ofSearch field))

theorem schemaKeys_fragment (hnames : (entity.fields.map Field.name).Nodup) :
    schemaKeys (fragment entity) entity = some (entity.fields.map Field.name) := by
  have hschema : dtoSchema entity .search ∈ schemas entity :=
    List.mem_cons_of_mem _ (List.mem_map_of_mem (by decide))
  have hproperties : (fragment entity).member?
      ["components", "schemas", Dto.nameOf .search entity.name, "properties"] = some (properties entity) :=
    member?_schema hschema ["properties"]
  rw [schemaKeys, hproperties, Option.map_some, properties, keys_ofFields hnames]

end OpenApi

theorem Dto.keys_search (subject : Subject) :
    (Dto.of .search subject).keys = subject.entity.fields.map searchKey := by
  rw [Dto.keys, Dto.of, List.map_map]
  rfl

section Loaded

variable {doc : Document} {schema : Schema} {subject : Subject}

/-- The class of a search and the parameters of the search operation have the same keys in the same order, one for
each field. The schema of the class has the names of the fields in this order, and so it agrees with the class
exactly when no field is a number. -/
theorem search_described_iff (hkeyed : doc.Keyed) (hload : Schema.load doc = .ok schema)
    (hentity : subject.entity ∈ schema.entities) :
    ∃ document, Json.parse (Surface.openApi.text subject) = .ok document ∧
      Surface.searchDto.text subject = (Dto.of .search subject).script.text ∧
      OpenApi.queryNames document subject.entity =
        some ((Dto.of .search subject).keys.map fun key => some (.string key)) ∧
      OpenApi.schemaKeys document subject.entity = some (subject.entity.fields.map Field.name) ∧
      (OpenApi.schemaKeys document subject.entity = some (Dto.of .search subject).keys ↔
        ∀ field ∈ subject.entity.fields, field.surface ≠ .number) := by
  have hnames := (Schema.keyed_of_load hkeyed hload).fields _ hentity
  refine ⟨_, PublishedApi.parse_openApi subject, rfl, ?_, OpenApi.schemaKeys_fragment hnames, ?_⟩
  · rw [OpenApi.queryNames_fragment, Dto.keys_search]
  · rw [OpenApi.schemaKeys_fragment hnames, Dto.keys_search, Option.some.injEq]
    exact DtoProperty.map_searchKey_eq_iff

/-- A country has no numbers, so that everything that describes a search for it says the same. -/
theorem search_described_for_countries :
    peopleAndCountries.document.Keyed ∧ Schema.load peopleAndCountries.document = .ok peopleAndCountries ∧
      ∃ subject document, subject.entity ∈ peopleAndCountries.entities ∧
        Json.parse (Surface.openApi.text subject) = .ok document ∧
        OpenApi.queryNames document subject.entity =
          some ((Dto.of .search subject).keys.map fun key => some (.string key)) ∧
        OpenApi.schemaKeys document subject.entity = some (Dto.of .search subject).keys := by
  have hkeyed : peopleAndCountries.document.Keyed := ⟨by decide, by decide⟩
  have hload : Schema.load peopleAndCountries.document = .ok peopleAndCountries := by decide
  let subject := Subject.of .standard ⟨peopleAndCountries.entities[2], []⟩
  have hentity : subject.entity ∈ peopleAndCountries.entities := by decide
  obtain ⟨document, hparse, -, hquery, -, hiff⟩ := search_described_iff hkeyed hload hentity
  exact ⟨hkeyed, hload, subject, document, hentity, hparse, hquery, hiff.2 (by decide)⟩

/-- People are found by `id_op`, of which the schema does not know. -/
theorem search_described_otherwise_for_people :
    people.document.Keyed ∧ Schema.load people.document = .ok people ∧
      ∃ subject document, subject.entity ∈ people.entities ∧
        Json.parse (Surface.openApi.text subject) = .ok document ∧
        (Dto.of .search subject).keys = ["id_op"] ∧
        OpenApi.queryNames document subject.entity = some [some (.string "id_op")] ∧
        OpenApi.schemaKeys document subject.entity = some ["id"] := by
  let subject := Subject.of .standard people.resolved[0]
  refine ⟨people_keyed, people_load, subject, _, by decide, PublishedApi.parse_openApi subject, by decide, ?_, ?_⟩
  · rw [OpenApi.queryNames_fragment]
    rfl
  · rw [OpenApi.schemaKeys_fragment (by decide)]
    rfl

/-- What a search is asked with is told apart, in its class as in its operation, exactly when no field is called
what a number is asked for by. -/
theorem searchKeys_nodup_iff (hkeyed : doc.Keyed) (hload : Schema.load doc = .ok schema)
    (hentity : subject.entity ∈ schema.entities) :
    ∃ document names, Json.parse (Surface.openApi.text subject) = .ok document ∧
      Surface.searchDto.text subject = (Dto.of .search subject).script.text ∧
      OpenApi.queryNames document subject.entity = some names ∧
      (names.Nodup ↔ (Dto.of .search subject).keys.Nodup) ∧
      ((Dto.of .search subject).keys.Nodup ↔
        ∀ number ∈ subject.entity.fields, number.surface = .number →
          ∀ other ∈ subject.entity.fields, other.surface ≠ .number → other.name ≠ number.name ++ "_op") := by
  have hnames := (Schema.keyed_of_load hkeyed hload).fields _ hentity
  refine ⟨_, _, PublishedApi.parse_openApi subject, rfl, OpenApi.queryNames_fragment _, ?_, ?_⟩
  · rw [Dto.keys_search, Json.nodup_strings_iff]
  · rw [Dto.keys_search]
    exact DtoProperty.nodup_searchKeys_iff hnames

theorem searchKeys_nodup_for_people :
    people.document.Keyed ∧ Schema.load people.document = .ok people ∧
      ∃ subject document names, subject.entity ∈ people.entities ∧
        Json.parse (Surface.openApi.text subject) = .ok document ∧
        OpenApi.queryNames document subject.entity = some names ∧
        (Dto.of .search subject).keys.Nodup ∧ names.Nodup := by
  let subject := Subject.of .standard people.resolved[0]
  have hentity : subject.entity ∈ people.entities := by decide
  obtain ⟨document, names, hparse, -, hquery, hsame, hiff⟩ := searchKeys_nodup_iff people_keyed people_load hentity
  have hkeys := hiff.2 (by decide)
  exact ⟨people_keyed, people_load, subject, document, names, hentity, hparse, hquery, hkeys, hsame.2 hkeys⟩

/-- A guest has an age, and a text that is called what an age is asked for by. -/
def guests.document : Document where
  models := some [
    ("Guest", ⟨"guests", [
      ("age", ⟨"integer", true, false, false, none, none, none, none⟩),
      ("age_op", ⟨"string", true, false, false, none, none, none, none⟩)], []⟩)]
  relationships := []
  api := .standard

def guests : Schema where
  entities := [
    { name := "Guest"
      tableName := "guests"
      fields := [
        ⟨"age", .integer, true, false, false, none, none, none, none⟩,
        ⟨"age_op", .string, true, false, false, none, none, none, none⟩]
      indexes := []
      relations := [] }]
  api := .standard

theorem not_searchKeys_nodup_for_guests :
    guests.document.Keyed ∧ Schema.load guests.document = .ok guests ∧
      ∃ subject document names, subject.entity ∈ guests.entities ∧
        Json.parse (Surface.openApi.text subject) = .ok document ∧
        OpenApi.queryNames document subject.entity = some names ∧
        ¬(Dto.of .search subject).keys.Nodup ∧ ¬names.Nodup := by
  have hkeyed : guests.document.Keyed := ⟨by decide, by decide⟩
  have hload : Schema.load guests.document = .ok guests := by decide
  let subject := Subject.of .standard ⟨guests.entities[0], []⟩
  have hrepeated : ¬(Dto.of .search subject).keys.Nodup := by decide
  refine ⟨hkeyed, hload, subject, _, _, by decide, PublishedApi.parse_openApi subject,
    OpenApi.queryNames_fragment _, hrepeated, fun hnodup => ?_⟩
  rw [← Dto.keys_search] at hnodup
  exact hrepeated (hnodup.of_map _)

end Loaded

end EntityForge
