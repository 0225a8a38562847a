import EntityForge.Proofs.Collision
import EntityForge.Proofs.Json.Merge
import EntityForge.Proofs.Loading
import Mathlib.Data.List.Find

/-!
What the published document of a schema says.

Every entity adds to the paths and to the schemas, and to nothing else, so that the document keeps its
header and its shape whatever the entities are. The schemas of two entities never have a name in common, so
none is merged with another. Main statements: `Published.merge_fragment`, `published_of_generate` and
`published_document`.
-/

namespace EntityForge

open Json (Readable mergeMembers)

namespace OpenApi

/-- What an entity adds to the paths. -/
def pathEntries (entity : Entity) : List (String × Json) :=
  (pathItems entity).map fun item => (item.path, item.toJson (sample entity))

theorem keys_pathEntries (entity : Entity) :
    (pathEntries entity).map Prod.fst = (pathItems entity).map PathItem.path := rfl

/-- What an entity adds to the document: its paths, and its schemas. -/
def parts (entity : Entity) : List (String × Json) := [
  ("paths", .object (pathEntries entity)),
  ("components", .object [("schemas", .object (schemas entity))])]

theorem fragment_eq (entity : Entity) : fragment entity = .object (parts entity) := rfl

theorem get?_parts {key : String} (hpaths : key ≠ "paths") (hcomponents : key ≠ "components")
    (entity : Entity) : Entries.get? (parts entity) key = none := by
  rw [Entries.get?_eq_none_iff]
  simp [parts, Entries.keys, hpaths, hcomponents]

theorem member?_fragment_paths (entity : Entity) (key : String) :
    (fragment entity).member? ["paths", key] = Entries.get? (pathEntries entity) key := by
  simp [fragment_eq, parts, Json.member?, Json.get?, Entries.get?]

theorem member?_fragment_schemas (entity : Entity) (key : String) :
    (fragment entity).member? ["components", "schemas", key] =
      Entries.get? (schemas entity) key := by
  simp [fragment_eq, parts, Json.member?, Json.get?, Entries.get?]

/-- The names of the schemas of an entity. -/
def schemaNames (model : String) : List String :=
  [model ++ "Entity", "Create" ++ model ++ "Dto", "Update" ++ model ++ "Dto",
    "Search" ++ model ++ "Dto"]

theorem keys_schemas (entity : Entity) :
    (schemas entity).map Prod.fst = schemaNames entity.name := rfl

theorem mem_schemaNames {name model : String} :
    name ∈ schemaNames model ↔
      name = entitySchema model ∨ ∃ kind, name = Dto.nameOf kind model := by
  constructor
  · intro h
    simp only [schemaNames, List.mem_cons, List.not_mem_nil, or_false] at h
    rcases h with rfl | rfl | rfl | rfl
    · exact Or.inl rfl
    · exact Or.inr ⟨.create, rfl⟩
    · exact Or.inr ⟨.update, rfl⟩
    · exact Or.inr ⟨.search, rfl⟩
  · rintro (rfl | ⟨kind, rfl⟩)
    · exact List.mem_cons_self
    · cases kind <;> simp [schemaNames, Dto.nameOf, DtoKind.word]

/-- A schema belongs to one entity only. -/
theorem model_of_schemaNames {name model other : String} (h : name ∈ schemaNames model)
    (hother : name ∈ schemaNames other) : model = other := by
  rcases mem_schemaNames.1 h with rfl | ⟨kind, rfl⟩ <;>
    rcases mem_schemaNames.1 hother with hname | ⟨kind', hname⟩
  · simpa [entitySchema] using hname
  · exact absurd hname (entitySchema_ne_nameOf _ _ _)
  · exact absurd hname.symm (entitySchema_ne_nameOf _ _ _)
  · exact (nameOf_inj hname).2

theorem nodup_schemas_of_names {entities : List Entity} (hnames : (entities.map Entity.name).Nodup) :
    ((entities.flatMap schemas).map Prod.fst).Nodup := by
  rw [List.map_flatMap, List.nodup_flatMap]
  refine ⟨fun entity _ => nodup_schemas entity, ?_⟩
  rw [List.Nodup, List.pairwise_map] at hnames
  refine hnames.imp fun {entity other} hne name hname hother => hne ?_
  exact model_of_schemaNames hname hother

end OpenApi

/-- A document under a header whose paths and schemas are these. -/
structure Published (api : ApiHeader) (paths schemas : Entries Json) (document : Json) : Prop where
  keys : document.keys = (PublishedApi.header api).keys
  header : ∀ key, key ≠ "paths" → key ≠ "components" →
    document.get? key = (PublishedApi.header api).get? key
  paths : document.get? "paths" = some (.object paths)
  components : document.get? "components" = some (.object [("schemas", .object schemas)])

namespace Published

variable {api : ApiHeader} {paths schemas : Entries Json} {document : Json}

theorem of_header (api : ApiHeader) : Published api [] [] (PublishedApi.header api) where
  keys := rfl
  header := fun _ _ _ => rfl
  paths := rfl
  components := rfl

/-- An entity adds to the paths and to the schemas, and to nothing else. -/
theorem merge_fragment (h : Published api paths schemas document) (entity : Entity) :
    Published api (mergeMembers paths (OpenApi.pathEntries entity))
      (mergeMembers schemas (OpenApi.schemas entity)) (document.merge (OpenApi.fragment entity)) := by
  obtain ⟨members, rfl, hpaths⟩ := Json.exists_members_of_get? h.paths
  have hcomponents : Entries.get? members "components" =
      some (.object [("schemas", .object schemas)]) := h.components
  have hkeys : Entries.keys members = ["openapi", "info", "servers", "paths", "components"] := h.keys
  have hget (key : String) : Entries.get? (mergeMembers members (OpenApi.parts entity)) key =
      Json.mergeOver (Entries.get? members key) (Entries.get? (OpenApi.parts entity) key) :=
    Json.get?_mergeMembers (by simp [OpenApi.parts]) members key
  rw [OpenApi.fragment_eq, Json.merge_object]
  constructor
  · rw [Json.keys, Json.keys_mergeMembers, hkeys]
    rfl
  · intro key hfirst hsecond
    rw [← h.header key hfirst hsecond, Json.get?, hget, OpenApi.get?_parts hfirst hsecond]
    rfl
  · rw [Json.get?, hget, hpaths]
    exact congrArg some (Json.merge_object _ _)
  · rw [Json.get?, hget, hcomponents]
    simp [OpenApi.parts, Entries.get?, Json.mergeOver, Json.merge_object, Json.mergeMembers,
      Entries.put]

/-- So do all entities together, one after the other. -/
theorem foldl_merge (h : Published api paths schemas document) (entities : List Entity) :
    Published api ((entities.map OpenApi.pathEntries).foldl mergeMembers paths)
      ((entities.map OpenApi.schemas).foldl mergeMembers schemas)
      ((entities.map OpenApi.fragment).foldl Json.merge document) := by
  induction entities generalizing paths schemas document with
  | nil => exact h
  | cons entity entities ih => exact ih (h.merge_fragment entity)

end Published

namespace PublishedApi

theorem readable_header (api : ApiHeader) {room : Nat} (h : 3 ≤ room) :
    Readable room (header api) := by
  have hinfo : Readable (room - 1) (.object [
      ("title", .string api.title),
      ("description", .string api.description),
      ("version", .string api.version)]) := Json.readable_object (by omega) (by simp) (by simp)
  have hservers : Readable (room - 1) (.array (api.servers.map fun server =>
      .object [("url", .string server.url), ("description", .string server.description)])) := by
    refine Json.readable_array (by omega) (List.forall_mem_map.2 fun server _ => ?_)
    exact Json.readable_object (by omega) (by simp) (by simp)
  have hempty (inner : Nat) (hinner : 0 < inner) : Readable inner (.object []) :=
    Json.readable_object hinner List.nodup_nil (by simp)
  have hpaths := hempty (room - 1) (by omega)
  have hcomponents : Readable (room - 1) (.object [("schemas", .object [])]) :=
    Json.readable_object (by omega) (by simp) (by simpa using hempty _ (by omega))
  refine Json.readable_object (by omega) (by simp) ?_
  simpa using ⟨hinfo, hservers, hpaths, hcomponents⟩

theorem readable_foldl_merge {room : Nat} {document : Json} (hdocument : Readable room document)
    {fragments : List Json} (h : ∀ fragment ∈ fragments, Readable room fragment) :
    Readable room (fragments.foldl Json.merge document) := by
  induction fragments generalizing document with
  | nil => exact hdocument
  | cons fragment fragments ih =>
    obtain ⟨hfragment, hfragments⟩ := List.forall_mem_cons.1 h
    exact ih (Json.readable_merge fragment hdocument hfragment) hfragments

end PublishedApi

namespace Artifact

/-- A file about all entities lies where its name says, and nowhere else. -/
theorem isSame_aggregate {base : Path} {name other : String} (hname : name ∈ Aggregate.names)
    (hother : other ∈ Aggregate.names) :
    (base.join ⟨other⟩).isSame (base.join ⟨name⟩) = (other == name) := by
  rw [Bool.eq_iff_iff, Path.isSame, beq_iff_eq, beq_iff_eq]
  constructor
  · intro h
    have hsame := congrArg List.getLast? h
    rw [getLast?_components_aggregate hother, getLast?_components_aggregate hname] at hsame
    simpa using hsame
  · intro h
    rw [h]

theorem find?_aggregate {subjects : List Subject} {api : Json} {layout : Layout}
    {name contents : String} (h : (name, contents) ∈ Aggregate.files subjects api) :
    find? (Aggregate.artifacts layout subjects api) (layout.generated.join ⟨name⟩) =
      some ⟨layout.generated.join ⟨name⟩, contents, .overwrite⟩ := by
  have hnames : (Aggregate.files subjects api).map Prod.fst = Aggregate.names := rfl
  have hmem (file : String × String) (hfile : file ∈ Aggregate.files subjects api) :
      file.1 ∈ Aggregate.names := by
    rw [← hnames]
    exact List.mem_map_of_mem hfile
  have hnodup : ((Aggregate.files subjects api).map Prod.fst).Nodup := by
    rw [hnames]
    decide
  have hfind : (Aggregate.files subjects api).find? (fun file => file.1 == name) =
      some (name, contents) := (find?_eq_some_iff_of_nodup hnodup).2 ⟨h, rfl⟩
  have hsame (file : String × String) (hfile : file ∈ Aggregate.files subjects api) :
      (layout.generated.join ⟨file.1⟩).isSame (layout.generated.join ⟨name⟩) = (file.1 == name) :=
    isSame_aggregate (hmem _ h) (hmem file hfile)
  rw [find?, Aggregate.artifacts, List.find?_map]
  exact congrArg (Option.map _) ((List.find?_congr hsame).trans hfind)

/-- No file of an entity is found where a file about all entities is. -/
theorem find?_scaffold {layout : Layout} {subjects : List Subject} {name : String}
    (hname : name ∈ Aggregate.names) :
    find? (subjects.flatMap (scaffold layout)) (layout.generated.join ⟨name⟩) = none := by
  rw [find?, List.find?_eq_none]
  intro artifact hartifact
  obtain ⟨subject, -, hartifact⟩ := List.mem_flatMap.1 hartifact
  have hplacement : artifact.placement ∈ (scaffold layout subject).map placement :=
    List.mem_map_of_mem hartifact
  rw [placements_scaffold, placement] at hplacement
  obtain ⟨surface, tail, htail, hcopy⟩ := mem_placements_of_directory.1 hplacement
  have hplural := Names.getLast?_kebabPlural subject.entity.name
  rw [Path.isSame, beq_iff_eq]
  rcases hcopy with ⟨hpath, -⟩ | ⟨hpath, -⟩ <;>
    exact hpath ▸ Surface.components_ne_aggregate htail hplural hname

/-- The document that is read from the file it is published in. -/
def published? (layout : Layout) (artifacts : List Artifact) : Option Json :=
  (find? artifacts (layout.generated.join ⟨"openapi.json"⟩)).bind fun file =>
    (Json.parse file.contents).toOption

end Artifact

section Document

variable {schema : Schema} {policy : OwnerPolicy} {layout : Layout} {artifacts : List Artifact}

/-- What is read from the published document is the header, with what all entities have added to it. -/
theorem published_of_generate (h : schema.generate policy layout = .ok artifacts) :
    ∃ document, Artifact.published? layout artifacts = some document ∧
      Published schema.api ((schema.entities.map OpenApi.pathEntries).foldl mergeMembers [])
        ((schema.entities.map OpenApi.schemas).foldl mergeMembers []) document := by
  rw [Schema.generate_eq] at h
  split at h
  · cases h
  next subjects hsubjects =>
  obtain rfl := Except.ok.inj h
  have hfragments : (subjects.map fun subject => OpenApi.fragment subject.entity) =
      schema.entities.map OpenApi.fragment := by
    rw [← Schema.entities_of_subjects hsubjects, List.map_map]
    rfl
  have hreadable : Readable Json.Node.depthLimit
      ((schema.entities.map OpenApi.fragment).foldl Json.merge (PublishedApi.header schema.api)) := by
    refine PublishedApi.readable_foldl_merge (PublishedApi.readable_header _ (by decide)) ?_
    exact List.forall_mem_map.2 fun entity _ => OpenApi.readable_fragment entity (by decide)
  have hfile (api : Json) :
      ("openapi.json", api.prettyText ++ "\n") ∈ Aggregate.files subjects api := by
    simp [Aggregate.files]
  refine ⟨_, ?_, (Published.of_header schema.api).foldl_merge schema.entities⟩
  rw [hfragments, Artifact.published?, Artifact.find?, List.find?_append, ← Artifact.find?,
    Artifact.find?_scaffold (by decide), Option.none_or, ← Artifact.find?,
    Artifact.find?_aggregate (hfile _), Option.bind_some, Json.parse_prettyText_newline hreadable]
  rfl

/-- The published document can be read, and its parts come in their order. The header is what the schema
says it is, whatever the entities are. The paths come in the order in which an entity first had them, and
every entity has its schemas as it has described them. All this needs is that no two entities have one name,
as in every schema that is loaded. -/
theorem published_document (hnames : (schema.entities.map Entity.name).Nodup)
    (h : schema.generate policy layout = .ok artifacts) :
    ∃ document paths schemas, Artifact.published? layout artifacts = some document ∧
      document.keys = ["openapi", "info", "servers", "paths", "components"] ∧
      (∀ key ∈ ["openapi", "info", "servers"],
        document.get? key = (PublishedApi.header schema.api).get? key) ∧
      document.get? "paths" = some (.object paths) ∧
      Entries.keys paths = (schema.entities.flatMap fun entity =>
        (OpenApi.pathItems entity).map OpenApi.PathItem.path).eraseDups ∧
      document.get? "components" = some (.object [("schemas", .object schemas)]) ∧
      Entries.keys schemas =
        (schema.entities.flatMap fun entity => OpenApi.schemaNames entity.name) ∧
      ∀ entity ∈ schema.entities, ∀ key ∈ OpenApi.schemaNames entity.name, ∃ value,
        (OpenApi.fragment entity).member? ["components", "schemas", key] = some value ∧
          Entries.get? schemas key = some value := by
  obtain ⟨document, hread, hpublished⟩ := published_of_generate h
  have hnodup := OpenApi.nodup_schemas_of_names hnames
  have hschemas : (schema.entities.map OpenApi.schemas).foldl mergeMembers [] =
      schema.entities.flatMap OpenApi.schemas := by
    rw [Json.foldl_mergeMembers_of_nodup (by rwa [List.nil_append, ← List.flatMap_def]),
      List.nil_append, ← List.flatMap_def]
  rw [hschemas] at hpublished
  refine ⟨document, _, _, hread, hpublished.keys, ?_, hpublished.paths, ?_, hpublished.components,
    ?_, ?_⟩
  · intro key hkey
    simp only [List.mem_cons, List.not_mem_nil, or_false] at hkey
    rcases hkey with rfl | rfl | rfl <;> exact hpublished.header _ (by decide) (by decide)
  · rw [Json.keys_foldl_mergeMembers, List.flatMap_map]
    rfl
  · rw [Entries.keys, List.map_flatMap]
    rfl
  · intro entity hentity key hkey
    rw [← OpenApi.keys_schemas, List.mem_map] at hkey
    obtain ⟨⟨name, value⟩, hmember, rfl⟩ := hkey
    have hown : Entries.get? (OpenApi.schemas entity) name = some value :=
      (Entries.get?_eq_some_iff (OpenApi.nodup_schemas entity)).2 hmember
    have hall : Entries.get? (schema.entities.flatMap OpenApi.schemas) name = some value :=
      (Entries.get?_eq_some_iff hnodup).2 (List.mem_flatMap.2 ⟨entity, hentity, hmember⟩)
    exact ⟨value, (OpenApi.member?_fragment_schemas entity name).trans hown, hall⟩

end Document

theorem published_document_for_people :
    ∃ artifacts document paths, people.generate .standard .standard = .ok artifacts ∧
      Artifact.published? .standard artifacts = some document ∧
      document.get? "paths" = some (.object paths) ∧
      Entries.keys paths = [
        "/persons", "/persons/search", "/persons/\x7bid\x7d",
        "/friendships", "/friendships/search", "/friendships/\x7bid\x7d"] := by
  obtain ⟨artifacts, hgenerate⟩ := Schema.generate_of_resolve people_resolve .standard .standard
  obtain ⟨document, paths, schemas, hread, -, -, hpaths, hkeys, -⟩ :=
    published_document (by decide) hgenerate
  exact ⟨artifacts, document, paths, hgenerate, hread, hpaths, hkeys.trans (by decide)⟩

end EntityForge
