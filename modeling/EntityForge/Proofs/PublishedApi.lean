import EntityForge.Generation
import EntityForge.Proofs.Json.RoundTrip

/-!
The description of every entity can be read back, whatever its names and those of its fields are, so that
generation fails only where the schema does not resolve. Main statements: `readable_fragment`,
`generate_eq` and `generation_refused_iff`.
-/

namespace EntityForge

namespace OpenApi

open Json

variable {room : Nat}

theorem readable_valueSchema (schema : ValueSchema) (h : 1 ≤ room) :
    Readable room schema.toJson := by
  refine readable_object h ?_ ?_ <;> rcases schema with ⟨type, _ | format⟩ <;>
    simp [ValueSchema.members]

theorem readable_property (field : Field) (h : 1 ≤ room) : Readable room (property field) := by
  refine readable_object h ?_ ?_ <;> rcases ValueSchema.of field with ⟨type, _ | format⟩ <;>
    simp [ValueSchema.members, describe]

theorem readable_properties (entity : Entity) (h : 2 ≤ room) :
    Readable room (properties entity) := by
  refine readable_ofList (by omega) fun pair hpair => ?_
  obtain ⟨field, -, rfl⟩ := List.mem_map.1 hpair
  exact readable_property field (by omega)

theorem readable_exampleValue (field : Field) : Readable room (exampleValue field) := by
  unfold exampleValue
  split
  · exact readable_string _ _
  · split
    · exact ⟨by decide, by decide⟩
    · exact ⟨by decide, by decide⟩
    · exact readable_bool _ _
    · exact readable_string _ _

theorem readable_sample (entity : Entity) (h : 1 ≤ room) : Readable room (sample entity) := by
  refine readable_ofList h fun pair hpair => ?_
  obtain ⟨field, -, rfl⟩ := List.mem_map.1 hpair
  exact readable_exampleValue field

theorem readable_reference (schema : String) (h : 1 ≤ room) : Readable room (reference schema) :=
  readable_object h (by simp) (by simp)

theorem readable_listOf {items : Json} (h : 1 ≤ room) (hitems : Readable (room - 1) items) :
    Readable room (listOf items) :=
  readable_object h (by simp) (by simpa using hitems)

theorem readable_jsonContent {members : List (String × Json)} (h : 2 ≤ room)
    (hkeys : (members.map Prod.fst).Nodup)
    (hvalues : ∀ member ∈ members, Readable (room - 2) member.2) :
    Readable room (jsonContent members) := by
  have hinner : Readable (room - 1) (.object members) :=
    readable_object (by omega) hkeys hvalues
  exact readable_object (by omega) (by simp) (by simpa using hinner)

theorem readable_parameter (parameter : Parameter) (h : 2 ≤ room)
    (hdescription : ∃ text, parameter.description = .string text) :
    Readable room parameter.toJson := by
  obtain ⟨text, htext⟩ := hdescription
  have hschema := readable_valueSchema parameter.schema (show 1 ≤ room - 1 by omega)
  refine readable_object (by omega) ?_ ?_ <;> rcases parameter with ⟨name, _ | _, _, _, _, _ | _⟩ <;>
    simp_all

theorem readable_response (response : Response) (h : 4 ≤ room)
    (hschema : ∀ schema ∈ response.schema, Readable (room - 3) schema) :
    Readable room response.toJson := by
  rcases response with ⟨status, description, _ | schema⟩
  · exact readable_object (by omega) (by simp) (by simp)
  · have hinner : Readable (room - 1 - 2) schema := by
      rw [Nat.sub_sub]
      exact hschema schema rfl
    have hcontent : Readable (room - 1) (jsonContent [("schema", schema)]) :=
      readable_jsonContent (by omega) (by simp) (by simpa using hinner)
    exact readable_object (by omega) (by simp) (by simpa using hcontent)

theorem readable_requestBody {sample : Json} (kind : DtoKind) (entity : String) (h : 4 ≤ room)
    (hsample : Readable (room - 3) sample) : Readable room (requestBody sample kind entity) := by
  have hreference := readable_reference (Dto.nameOf kind entity) (show 1 ≤ room - 1 - 2 by omega)
  have hexample : Readable (room - 1 - 2) sample := by
    rw [Nat.sub_sub]
    exact hsample
  have hcontent : Readable (room - 1) (jsonContent
      [("schema", reference (Dto.nameOf kind entity)), ("example", sample)]) :=
    readable_jsonContent (by omega) (by simp) (by simpa using ⟨hreference, hexample⟩)
  exact readable_object (by omega) (by simp) (by simpa using hcontent)

/-- The statuses of the responses differ, what a response holds is no more than a list of references, and
every parameter is described in words. -/
structure Operation.Regular (operation : Operation) : Prop where
  statuses : (operation.responses.map Response.status).Nodup
  schemas : ∀ response ∈ operation.responses, ∀ schema ∈ response.schema,
    ∀ room, 2 ≤ room → Readable room schema
  parameters : ∀ parameters ∈ operation.parameters, ∀ parameter ∈ parameters,
    ∃ text, parameter.description = .string text

theorem readable_operation {operation : Operation} (hregular : operation.Regular) {sample : Json}
    (h : 7 ≤ room) (hsample : Readable (room - 4) sample) :
    Readable room (operation.toJson sample) := by
  have hresponses : Readable (room - 1)
      (.object (operation.responses.map fun r => (r.status, r.toJson))) := by
    refine readable_object (by omega) ?_ fun member hmember => ?_
    · rw [List.map_map]
      exact hregular.statuses
    · obtain ⟨response, hresponse, rfl⟩ := List.mem_map.1 hmember
      exact readable_response response (by omega) fun schema hschema =>
        hregular.schemas response hresponse schema hschema _ (by omega)
  have hparameters (parameters : List Parameter) (hmem : parameters ∈ operation.parameters) :
      Readable (room - 1) (.array (parameters.map Parameter.toJson)) := by
    refine readable_array (by omega) fun item hitem => ?_
    obtain ⟨parameter, hparameter, rfl⟩ := List.mem_map.1 hitem
    exact readable_parameter parameter (by omega)
      (hregular.parameters parameters hmem parameter hparameter)
  have hbody (kind : DtoKind) (entity : String) :
      Readable (room - 1) (requestBody sample kind entity) := by
    refine readable_requestBody kind entity (by omega) ?_
    rw [Nat.sub_sub]
    exact hsample
  have htags : Readable (room - 1) (.array [.string operation.tag]) :=
    readable_array (by omega) (by simp)
  rcases operation with ⟨verb, tag, summary, operationId, _ | parameters, _ | ⟨kind, entity⟩, responses⟩
  all_goals
    refine readable_object (by omega) (by simp) ?_
    simp_all

theorem readable_pathItem {item : PathItem} (hverbs : (item.operations.map Operation.verb).Nodup)
    (hregular : ∀ operation ∈ item.operations, operation.Regular) {sample : Json} (h : 8 ≤ room)
    (hsample : Readable (room - 5) sample) : Readable room (item.toJson sample) := by
  refine readable_object (by omega) ?_ fun member hmember => ?_
  · rw [List.map_map]
    have hname : Function.Injective Verb.name := by
      intro a b
      cases a <;> cases b <;> decide
    have hnames := hverbs.map hname
    rw [List.map_map] at hnames
    exact hnames
  · obtain ⟨operation, hoperation, rfl⟩ := List.mem_map.1 hmember
    refine readable_operation (hregular operation hoperation) (by omega) ?_
    rw [Nat.sub_sub]
    exact hsample

/-- What a response of one entity or of many holds. -/
theorem readable_schema_one (names : Names) (status description : String) :
    ∀ schema ∈ (one names status description).schema, ∀ room, 2 ≤ room → Readable room schema := by
  intro schema hschema room hroom
  obtain rfl := Option.some.inj hschema
  exact readable_reference _ (by omega)

theorem readable_schema_many (names : Names) :
    ∀ schema ∈ (many names).schema, ∀ room, 2 ≤ room → Readable room schema := by
  intro schema hschema room hroom
  obtain rfl := Option.some.inj hschema
  exact readable_listOf (by omega) (readable_reference _ (by omega))

theorem regular_collection (names : Names) :
    ∀ operation ∈ (collection names).operations, operation.Regular := by
  have hmany := readable_schema_many names
  have hone := readable_schema_one names "201" ("Created " ++ names.model)
  intro operation hoperation
  simp only [collection, List.mem_cons, List.not_mem_nil, or_false] at hoperation
  rcases hoperation with rfl | rfl
  · exact ⟨by simp, by simpa using hmany, by simp⟩
  · exact ⟨by simp, by simpa using hone, by simp⟩

theorem regular_search (names : Names) (entity : Entity) :
    ∀ operation ∈ (search names entity).operations, operation.Regular := by
  have hmany := readable_schema_many names
  intro operation hoperation
  obtain rfl := List.mem_singleton.1 hoperation
  refine ⟨by simp, by simpa using hmany, ?_⟩
  intro parameters hparameters parameter hparameter
  obtain rfl := Option.some.inj hparameters
  obtain ⟨field, -, rfl⟩ := List.mem_map.1 hparameter
  exact ⟨_, rfl⟩

theorem regular_single (names : Names) (entity : Entity) :
    ∀ operation ∈ (single names entity).operations, operation.Regular := by
  have hone (description : String) := readable_schema_one names "200" description
  have hkey : ∃ text, (Parameter.ofKey entity).description = .string text := ⟨_, rfl⟩
  intro operation hoperation
  simp only [single, List.mem_cons, List.not_mem_nil, or_false] at hoperation
  rcases hoperation with rfl | rfl | rfl | rfl
  · exact ⟨by simp [one, notFound], by simpa [notFound] using hone _, by simpa using hkey⟩
  · exact ⟨by simp [one, notFound], by simpa [notFound] using hone _, by simpa using hkey⟩
  · exact ⟨by simp [one, notFound], by simpa [notFound] using hone _, by simpa using hkey⟩
  · exact ⟨by simp [notFound], by simp [notFound], by simpa using hkey⟩

theorem nodup_paths (entity : Entity) : ((pathItems entity).map PathItem.path).Nodup := by
  simp [pathItems, collection, search, single, ← String.toList_inj]

theorem readable_paths (entity : Entity) (h : 9 ≤ room) : Readable room
    (.object ((pathItems entity).map fun p => (p.path, p.toJson (sample entity)))) := by
  refine readable_object (by omega) ?_ fun member hmember => ?_
  · rw [List.map_map]
    exact nodup_paths entity
  · obtain ⟨item, hitem, rfl⟩ := List.mem_map.1 hmember
    simp only [pathItems, List.mem_cons, List.not_mem_nil, or_false] at hitem
    have hroom : 8 ≤ room - 1 := by omega
    have hexample := readable_sample entity (show 1 ≤ room - 1 - 5 by omega)
    rcases hitem with rfl | rfl | rfl
    · exact readable_pathItem (by simp [collection]) (regular_collection _) hroom hexample
    · exact readable_pathItem (by simp [search]) (regular_search _ _) hroom hexample
    · exact readable_pathItem (by simp [single]) (regular_single _ _) hroom hexample

/-- The schema of an entity ends in another letter than those of its classes. -/
theorem entitySchema_ne_nameOf (model : String) (kind : DtoKind) (other : String) :
    entitySchema model ≠ Dto.nameOf kind other := by
  intro h
  have hlast := congrArg (fun s => s.toList.getLast?) h
  simp [entitySchema, Dto.nameOf] at hlast

/-- The first letter of a class tells its kind, and what is left its entity. -/
theorem nameOf_inj {kind kind' : DtoKind} {model other : String}
    (h : Dto.nameOf kind model = Dto.nameOf kind' other) : kind = kind' ∧ model = other := by
  have hkind : kind = kind' := by
    have hfirst := congrArg (fun s => s.toList.head?) h
    cases kind <;> cases kind' <;> simp [Dto.nameOf, DtoKind.word] at hfirst ⊢
  subst hkind
  simpa [Dto.nameOf] using h

theorem nodup_schemas (entity : Entity) : ((schemas entity).map Prod.fst).Nodup := by
  have hends (kind : DtoKind) := entitySchema_ne_nameOf entity.name kind entity.name
  simp only [schemas, dtoSchema, List.map_cons, List.map_nil, List.nodup_cons, List.mem_cons,
    List.not_mem_nil, or_false, not_or, not_false_eq_true, List.nodup_nil, and_true]
  refine ⟨⟨hends _, hends _, hends _⟩, ⟨?_, ?_⟩, ?_⟩ <;> intro h <;> cases (nameOf_inj h).1

theorem readable_schemas (entity : Entity) (h : 4 ≤ room) :
    Readable room (.object (schemas entity)) := by
  have hproperties := readable_properties entity (show 2 ≤ room - 1 - 1 by omega)
  have hrequired : Readable (room - 1 - 1) (.array ((required entity).map .string)) := by
    refine readable_array (by omega) fun item hitem => ?_
    obtain ⟨name, -, rfl⟩ := List.mem_map.1 hitem
    exact readable_string _ _
  refine readable_object (by omega) (nodup_schemas entity) fun member hmember => ?_
  simp only [schemas, dtoSchema, List.map_cons, List.map_nil, List.mem_cons, List.not_mem_nil,
    or_false] at hmember
  rcases hmember with rfl | rfl | rfl | rfl
  · exact readable_object (by omega) (by simp) (by simpa using ⟨hproperties, hrequired⟩)
  · exact readable_object (by omega) (by simp) (by simpa using hproperties)
  · exact readable_object (by omega) (by simp) (by simpa using hproperties)
  · exact readable_object (by omega) (by simp) (by simpa using hproperties)

/-- What an entity contributes to the document can be read back. -/
theorem readable_fragment (entity : Entity) (h : 10 ≤ room) : Readable room (fragment entity) := by
  have hpaths := readable_paths entity (show 9 ≤ room - 1 by omega)
  have hschemas := readable_schemas entity (show 4 ≤ room - 1 - 1 by omega)
  have hcomponents : Readable (room - 1) (.object [("schemas", .object (schemas entity))]) :=
    readable_object (by omega) (by simp) (by simpa using hschemas)
  exact readable_object (by omega) (by simp) (by simpa using ⟨hpaths, hcomponents⟩)

end OpenApi

namespace PublishedApi

/-- The text that an entity contributes is read back as the value it was printed from. -/
theorem parse_openApi (subject : Subject) :
    Json.parse (Surface.openApi.text subject) = .ok (OpenApi.fragment subject.entity) :=
  Json.parse_prettyText (OpenApi.readable_fragment subject.entity (by decide))

theorem mergeText_openApi (document : Json) (subject : Subject) :
    mergeText document (Surface.openApi.text subject) =
      .ok (document.merge (OpenApi.fragment subject.entity)) := by
  rw [mergeText, parse_openApi]
  rfl

/-- The texts that the entities contribute are merged as the values they were printed from. -/
theorem mergeTexts_fragments (document : Json) (subjects : List Subject) :
    mergeTexts document (subjects.map Surface.openApi.text) =
      .ok ((subjects.map fun s => OpenApi.fragment s.entity).foldl Json.merge document) := by
  induction subjects generalizing document with
  | nil => rfl
  | cons subject subjects ih =>
    unfold mergeTexts at ih ⊢
    rw [List.map_cons, List.foldlM_cons, mergeText_openApi]
    exact ih _

end PublishedApi

namespace Schema

/-- A schema that resolves is generated from; one that does not is refused for the reason it does not. -/
theorem generate_eq (schema : Schema) (policy : OwnerPolicy) (layout : Layout) :
    schema.generate policy layout =
      match schema.subjects policy with
      | .error e => .error (.unresolved e)
      | .ok subjects =>
        .ok (subjects.flatMap (Artifact.scaffold layout) ++
          Aggregate.artifacts layout subjects
            ((subjects.map fun s => OpenApi.fragment s.entity).foldl Json.merge
              (PublishedApi.header schema.api))) := by
  unfold generate
  cases schema.subjects policy with
  | error e => rfl
  | ok subjects =>
    have hmerge : PublishedApi.ofSubjects schema.api subjects = .ok _ :=
      PublishedApi.mergeTexts_fragments (PublishedApi.header schema.api) subjects
    change (PublishedApi.ofSubjects schema.api subjects).mapError GenerationError.unreadable >>=
      (fun api => pure _) = _
    rw [hmerge]
    rfl

theorem generate_of_resolve {schema : Schema} {resolved : List ResolvedEntity}
    (h : schema.resolve = .ok resolved) (policy : OwnerPolicy) (layout : Layout) :
    ∃ artifacts, schema.generate policy layout = .ok artifacts := by
  have hsubjects : schema.subjects policy = .ok (resolved.map (Subject.of policy)) := by
    rw [subjects, h]
    rfl
  rw [generate_eq, hsubjects]
  exact ⟨_, rfl⟩

theorem generate_eq_error_iff {schema : Schema} {policy : OwnerPolicy} {layout : Layout}
    {e : GenerationError} :
    schema.generate policy layout = .error e ↔
      ∃ cause, schema.resolve = .error cause ∧ e = .unresolved cause := by
  rw [generate_eq, subjects]
  cases schema.resolve with
  | ok resolved => simp [bind, Except.bind, pure, Except.pure]
  | error cause => simp [bind, Except.bind, eq_comm]

end Schema

/-- Nothing but a relation that does not resolve keeps a schema from being generated from. The OpenAPI text
of an entity is always read back as the value it was printed from, so it is never refused. -/
theorem generation_refused_iff (schema : Schema) (policy : OwnerPolicy) (layout : Layout) :
    (∀ e, schema.generate policy layout = .error e ↔
      ∃ cause, schema.resolve = .error cause ∧ e = .unresolved cause) ∧
    (∀ fault, schema.generate policy layout ≠ .error (.unreadable fault)) ∧
    ∀ subject, Json.parse (Surface.openApi.text subject) = .ok (OpenApi.fragment subject.entity) ∧
      ∀ document, PublishedApi.mergeText document (Surface.openApi.text subject) =
        .ok (document.merge (OpenApi.fragment subject.entity)) := by
  refine ⟨fun e => Schema.generate_eq_error_iff, ?_, ?_⟩
  · intro fault hfault
    obtain ⟨cause, -, hcause⟩ := Schema.generate_eq_error_iff.1 hfault
    cases hcause
  · intro subject
    exact ⟨PublishedApi.parse_openApi subject,
      fun document => PublishedApi.mergeText_openApi document subject⟩

end EntityForge
