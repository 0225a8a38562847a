import EntityForge.Proofs.Operations

/-!
Where the references in the published document lead.

What an operation answers and what it is sent are described by a reference to a schema of its entity, or by a
list of such references. Where entities share a path the last one replaces the references of the others, and the
schemas of all of them are there whatever is merged, so that every reference leads to a schema of the document.
Main statements: `operationSchemas_of_prevails`, `refersTo_operations` and `references_resolve`.
-/

namespace EntityForge

open Json (mergeMembers)

namespace PublishedApi

/-- The schemas of what a response or the body of a request holds, in whatever format. -/
def contentSchemas (holder : Json) : List Json :=
  (holder.get? "content").toList.flatMap fun content => content.values.filterMap (Json.get? · "schema")

/-- The schemas of what an operation answers, and of what it is sent. -/
def operationSchemas (operation : Json) : List Json :=
  ((operation.get? "responses").toList.flatMap Json.values ++ (operation.get? "requestBody").toList).flatMap
    contentSchemas

end PublishedApi

open PublishedApi (contentSchemas operationSchemas)

namespace OpenApi

/-- A reference to a schema of one of the names, or a list of such references. -/
def RefersTo (names : List String) (schema : Json) : Prop :=
  ∃ name ∈ names, schema = reference name ∨ schema = listOf (reference name)

theorem RefersTo.mono {names more : List String} (hnames : ∀ name ∈ names, name ∈ more) {schema : Json}
    (h : RefersTo names schema) : RefersTo more schema := by
  obtain ⟨name, hname, hschema⟩ := h
  exact ⟨name, hnames name hname, hschema⟩

/-- The schemas of what an operation answers, in the order of the statuses, and then that of what it is sent. -/
def Operation.schemas (operation : Operation) : List Json :=
  operation.responses.filterMap Response.schema ++
    (operation.body.map fun (kind, entity) => reference (Dto.nameOf kind entity)).toList

theorem contentSchemas_toJson (response : Response) :
    contentSchemas response.toJson = response.schema.toList := by
  obtain ⟨status, description, schema⟩ := response
  cases schema <;> rfl

/-- Whatever an operation was merged over, it is its own schemas that are left. -/
theorem operationSchemas_of_prevails {operation : Operation} {value : Json} (h : operation.Prevails value) :
    operationSchemas value = operation.schemas := by
  obtain ⟨-, hanswers, sample, hbody⟩ := h
  have hresponses : (Json.object operation.answers).values.flatMap contentSchemas =
      operation.responses.filterMap Response.schema := by
    rw [Json.values, Operation.answers, List.map_map, List.flatMap_map, List.filterMap_eq_flatMap_toList]
    exact List.flatMap_congr fun response _ => contentSchemas_toJson response
  rw [operationSchemas, hanswers, hbody, Option.toList_some, List.flatMap_singleton, List.flatMap_append,
    hresponses, Operation.schemas]
  cases operation.body with
  | none => rfl
  | some body => rfl

theorem schemas_operations (entity : Entity) :
    entity.operations.map Operation.schemas =
      let one := reference (entitySchema entity.name)
      let sent (kind : DtoKind) := reference (Dto.nameOf kind entity.name)
      [[listOf one], [one, sent .create], [listOf one], [one], [one, sent .update], [one, sent .update], []] :=
  rfl

/-- An operation refers to nothing but the schemas of its entity. -/
theorem refersTo_operations (entity : Entity) :
    ∀ schemas ∈ entity.operations.map Operation.schemas, ∀ schema ∈ schemas,
      RefersTo (schemaNames entity.name) schema := by
  have hentity := mem_schemaNames.2 (Or.inl (Eq.refl (entitySchema entity.name)))
  have hone : RefersTo (schemaNames entity.name) (reference (entitySchema entity.name)) :=
    ⟨_, hentity, Or.inl rfl⟩
  have hmany : RefersTo (schemaNames entity.name) (listOf (reference (entitySchema entity.name))) :=
    ⟨_, hentity, Or.inr rfl⟩
  have hsent (kind : DtoKind) : RefersTo (schemaNames entity.name) (reference (Dto.nameOf kind entity.name)) :=
    ⟨_, mem_schemaNames.2 (Or.inr ⟨kind, rfl⟩), Or.inl rfl⟩
  rw [schemas_operations]
  simp only [List.forall_mem_cons, List.not_mem_nil, false_implies, implies_true, and_true]
  exact ⟨hmany, ⟨hone, hsent .create⟩, hmany, hone, ⟨hone, hsent .update⟩, hone, hsent .update⟩

end OpenApi

open OpenApi (RefersTo)

section Document

variable {schema : Schema} {policy : OwnerPolicy} {layout : Layout} {artifacts : List Artifact}

/-- No schema of an entity is lost, whatever it is merged with. -/
theorem mem_keys_schemas {entities : List Entity} {entity : Entity} (hentity : entity ∈ entities) {name : String}
    (hname : name ∈ OpenApi.schemaNames entity.name) :
    name ∈ ((entities.map OpenApi.schemas).foldl mergeMembers []).keys := by
  rw [Json.keys_foldl_mergeMembers, List.mem_eraseDups, List.mem_flatMap]
  exact ⟨_, List.mem_map_of_mem hentity, hname⟩

/-- The schemas that the operations of the published document are described by are those of the entities that
have the last word at their paths, and every one of them is a reference to a schema of the document or a list of
such references. -/
theorem references_resolve (h : schema.generate policy layout = .ok artifacts) :
    ∃ document schemas, Artifact.published? layout artifacts = some document ∧
      document.member? ["components", "schemas"] = some (.object schemas) ∧
      (PublishedApi.operations document).map operationSchemas =
        (schema.speakers.flatMap Entity.operations).map OpenApi.Operation.schemas ∧
      ∀ operation ∈ PublishedApi.operations document, ∀ described ∈ operationSchemas operation,
        RefersTo (Entries.keys schemas) described := by
  obtain ⟨document, hread, hpublished, hprevails⟩ := prevailing_of_generate h
  have hschemas : (PublishedApi.operations document).map operationSchemas =
      (schema.speakers.flatMap Entity.operations).map OpenApi.Operation.schemas :=
    map_eq_map_of_forall₂ hprevails fun _ _ => OpenApi.operationSchemas_of_prevails
  have hcomponents : document.member? ["components", "schemas"] =
      some (.object ((schema.entities.map OpenApi.schemas).foldl mergeMembers [])) := by
    rw [Json.member?, hpublished.components]
    rfl
  refine ⟨document, _, hread, hcomponents, hschemas, fun operation hoperation described hdescribed => ?_⟩
  have hmem : operationSchemas operation ∈
      (schema.speakers.flatMap Entity.operations).map OpenApi.Operation.schemas := by
    rw [← hschemas]
    exact List.mem_map_of_mem hoperation
  rw [List.map_flatMap, List.mem_flatMap] at hmem
  obtain ⟨entity, hentity, hmem⟩ := hmem
  have hrefers := OpenApi.refersTo_operations entity _ hmem described hdescribed
  exact hrefers.mono fun name hname => mem_keys_schemas (Schema.mem_entities_of_speakers hentity) hname

end Document

/-- Two entities that share their paths, where the references of one replace those of the other. -/
theorem references_resolve_for_categories :
    ∃ artifacts document schemas, categories.generate .standard .standard = .ok artifacts ∧
      Artifact.published? .standard artifacts = some document ∧
      document.member? ["components", "schemas"] = some (.object schemas) ∧
      ∀ operation ∈ PublishedApi.operations document, ∀ described ∈ operationSchemas operation,
        RefersTo (Entries.keys schemas) described := by
  have hresolve : categories.resolve = .ok (categories.entities.map (⟨·, []⟩)) := by decide
  obtain ⟨artifacts, hgenerate⟩ := Schema.generate_of_resolve hresolve .standard .standard
  obtain ⟨document, schemas, hread, hmember, -, hrefers⟩ := references_resolve hgenerate
  exact ⟨artifacts, document, schemas, hgenerate, hread, hmember, hrefers⟩

end EntityForge
