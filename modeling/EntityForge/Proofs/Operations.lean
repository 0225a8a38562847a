import EntityForge.Proofs.SharedPaths

/-!
What is left of the operations of entities that share their paths.

Entities of one plural have the same paths, and there the operations of one are merged over those of the other.
Tags and parameters follow one another and the examples are mixed, but what identifies an operation, what it
answers and the schema of what it is sent have the same keys in every entity, all the way down, so that these
are said as the last entity says them. The published document has the operations of the entities that have the
last word in this way, and no others. Main statements: `Schema.mem_speakers_iff`, `Operation.Prevails.merge`,
`lists_putAll` and `prevailing_of_generate`.
-/

namespace EntityForge

open Json (mergeMembers mergeOver)

/-- What stands under the keys of an object. -/
def Json.values : Json → List Json
  | .object members => members.map Prod.snd
  | _ => []

theorem Json.nodup_strings_iff {texts : List String} :
    (texts.map fun text => some (Json.string text)).Nodup ↔ texts.Nodup :=
  List.nodup_map_iff fun _ _ h => Json.string.inj (Option.some.inj h)

/-- The entities that have the last word at their paths: of those with one plural the last, at the place of the
first. -/
def Schema.speakers (schema : Schema) : List Entity :=
  (Entries.ofList (schema.entities.map fun entity => (entity.directory, entity))).map Prod.snd

def Entity.operations (entity : Entity) : List OpenApi.Operation :=
  (OpenApi.pathItems entity).flatMap OpenApi.PathItem.operations

namespace Schema

variable {schema : Schema} {entity : Entity}

theorem directory_of_mem_ofList {entities : List Entity} {entry : String × Entity}
    (h : entry ∈ Entries.ofList (entities.map fun entity => (entity.directory, entity))) :
    entry.1 = entry.2.directory ∧ entry.2 ∈ entities := by
  obtain ⟨entity, hentity, rfl⟩ := List.mem_map.1 ((Entries.ofList_spec _).2 entry h)
  exact ⟨rfl, hentity⟩

theorem mem_entities_of_speakers (h : entity ∈ schema.speakers) : entity ∈ schema.entities := by
  obtain ⟨entry, hentry, rfl⟩ := List.mem_map.1 h
  exact (directory_of_mem_ofList hentry).2

theorem nodup_speakers (schema : Schema) : (schema.speakers.map Entity.directory).Nodup := by
  have hkeys := (Entries.ofList_spec (schema.entities.map fun entity => (entity.directory, entity))).1
  rw [speakers, List.map_map]
  rwa [Entries.keys, List.map_congr_left fun entry hentry => (directory_of_mem_ofList hentry).1] at hkeys

/-- No entity of its plural comes after one that has the last word. -/
theorem mem_speakers_iff : entity ∈ schema.speakers ↔ ∃ before after,
    schema.entities = before ++ entity :: after ∧ ∀ other ∈ after, other.directory ≠ entity.directory := by
  have hmem : entity ∈ schema.speakers ↔ Entries.get?
      (Entries.ofList (schema.entities.map fun e => (e.directory, e))) entity.directory = some entity := by
    rw [Entries.get?_eq_some_iff (Entries.ofList_spec _).1, speakers, List.mem_map]
    constructor
    · rintro ⟨entry, hentry, rfl⟩
      rw [← (directory_of_mem_ofList hentry).1]
      exact hentry
    · exact fun hentry => ⟨_, hentry, rfl⟩
  rw [hmem, Entries.get?_ofList_eq_some_iff]
  constructor
  · rintro ⟨before, after, hpairs, hafter⟩
    obtain ⟨first, rest, hentities, rfl, hrest⟩ := List.map_eq_append_iff.1 hpairs
    obtain ⟨last, others, rfl, hlast, rfl⟩ := List.map_eq_cons_iff.1 hrest
    obtain rfl : last = entity := (Prod.mk.inj hlast).2
    refine ⟨first, others, hentities, fun other hother hsame => hafter ?_⟩
    rw [List.map_map, List.mem_map]
    exact ⟨other, hother, hsame⟩
  · rintro ⟨before, after, hentities, hafter⟩
    refine ⟨_, _, by rw [hentities, List.map_append, List.map_cons], ?_⟩
    rw [List.map_map, List.mem_map]
    rintro ⟨other, hother, hsame⟩
    exact hafter other hother hsame

end Schema

namespace OpenApi

/-- What an operation answers, by status. -/
def Operation.answers (operation : Operation) : List (String × Json) :=
  operation.responses.map fun response => (response.status, response.toJson)

/-- Whatever was merged before, what identifies the operation, what it answers and the schema of what it is sent
are said as the operation says them. -/
structure Operation.Prevails (operation : Operation) (value : Json) : Prop where
  operationId : value.get? "operationId" = some (.string operation.operationId)
  answers : value.get? "responses" = some (.object operation.answers)
  body : ∃ sample, value.get? "requestBody" =
    operation.body.map fun (kind, entity) => requestBody sample kind entity

/-- The operations of a path prevail, each under its verb. -/
def PathItem.Prevails (item : PathItem) (value : Json) : Prop :=
  ∃ members, value = .object members ∧
    Json.Lists (fun operation => operation.verb.name) Operation.Prevails item.operations members

/-- A response has a schema where the other one has, with the same keys all the way down. -/
def Response.Replaces (response other : Response) : Prop :=
  mergeOver other.schema response.schema = response.schema

/-- The answers have the same statuses, and there is no body that would be left over. -/
structure Operation.Replaces (operation other : Operation) : Prop where
  responses : List.Forall₂ (fun response before => before.status = response.status ∧ response.Replaces before)
    operation.responses other.responses
  statuses : (operation.responses.map Response.status).Nodup
  body : operation.body = none → other.body = none

structure PathItem.Replaces (item other : PathItem) : Prop where
  operations : List.Forall₂
    (fun operation before => before.verb.name = operation.verb.name ∧ operation.Replaces before)
    item.operations other.operations
  verbs : (item.operations.map fun operation => operation.verb.name).Nodup

section Merge

theorem merge_reference (name other : String) :
    (reference other).merge (reference name) = reference name := by
  simp [reference, Json.merge, mergeMembers, Entries.get?, Entries.put]

theorem merge_listOf (items other : Json) : (listOf other).merge (listOf items) = listOf (other.merge items) := by
  simp [listOf, Json.merge, mergeMembers, Entries.get?, Entries.put]

theorem merge_jsonContent (members others : List (String × Json)) :
    (jsonContent others).merge (jsonContent members) = jsonContent (mergeMembers others members) := by
  simp [jsonContent, Json.merge_object, mergeMembers, Entries.get?, Entries.put]

theorem merge_requestBody (sample other : Json) (kind kind' : DtoKind) (entity entity' : String) :
    (requestBody other kind' entity').merge (requestBody sample kind entity) =
      requestBody (other.merge sample) kind entity := by
  simp [requestBody, Json.merge_object, merge_jsonContent, merge_reference, mergeMembers, Entries.get?,
    Entries.put]

theorem Response.Replaces.merge {response other : Response} (h : response.Replaces other) :
    other.toJson.merge response.toJson = response.toJson := by
  obtain ⟨status, description, schema⟩ := response
  obtain ⟨status', description', schema'⟩ := other
  unfold Replaces at h
  cases schema with
  | none =>
    obtain rfl : schema' = none := h
    simp [toJson, Json.merge, mergeMembers, Entries.get?, Entries.put]
  | some schema =>
    cases schema' with
    | none => simp [toJson, Json.merge, mergeMembers, Entries.get?, Entries.put]
    | some schema' =>
      have hschema : schema'.merge schema = schema := Option.some.inj h
      simp [toJson, Json.merge, merge_jsonContent, mergeMembers, Entries.get?, Entries.put, hschema]

theorem Operation.Replaces.merge_answers {operation other : Operation} (h : operation.Replaces other) :
    mergeMembers other.answers operation.answers = operation.answers := by
  have hanswers : Json.Lists Response.status (fun response value => value = response.toJson) other.responses
      other.answers := .of_map fun _ _ => rfl
  refine (hanswers.merge ?_ h.responses h.statuses).eq_map
  rintro response before _ hresponse rfl
  exact hresponse.merge

variable {operation other : Operation} {item before : PathItem} {old : Json}

/-- An operation is an object with these members, whatever else it has. -/
theorem exists_members_toJson (operation : Operation) (sample : Json) :
    ∃ members, operation.toJson sample = .object members ∧ (members.map Prod.fst).Nodup ∧
      Entries.get? members "operationId" = some (.string operation.operationId) ∧
      Entries.get? members "responses" = some (.object operation.answers) ∧
      Entries.get? members "requestBody" =
        operation.body.map fun (kind, entity) => requestBody sample kind entity := by
  obtain ⟨verb, tag, summary, operationId, parameters, body, responses⟩ := operation
  cases parameters <;> cases body <;> exact ⟨_, rfl, by simp, rfl, rfl, rfl⟩

theorem Operation.prevails_toJson (operation : Operation) (sample : Json) :
    operation.Prevails (operation.toJson sample) := by
  obtain ⟨members, hjson, -, hid, hanswers, hbody⟩ := exists_members_toJson operation sample
  rw [hjson]
  exact ⟨hid, hanswers, sample, hbody⟩

theorem Operation.Prevails.merge (h : other.Prevails old) (hreplaces : operation.Replaces other)
    (sample : Json) : operation.Prevails (old.merge (operation.toJson sample)) := by
  obtain ⟨present, rfl, -⟩ := Json.exists_members_of_get? h.operationId
  obtain ⟨members, hjson, hnodup, hid, hanswers, hbody⟩ := exists_members_toJson operation sample
  rw [hjson]
  constructor
  · rw [Json.get?_merge_object hnodup, h.operationId, Json.get?, hid]
    rfl
  · rw [Json.get?_merge_object hnodup, h.answers, Json.get?, hanswers, mergeOver, Json.merge_object,
      hreplaces.merge_answers]
  · obtain ⟨shown, hshown⟩ := h.body
    rw [Json.get?_merge_object hnodup, hshown, Json.get?, hbody]
    cases hsent : operation.body with
    | none =>
      rw [hreplaces.body hsent]
      exact ⟨sample, rfl⟩
    | some body =>
      cases other.body with
      | none => exact ⟨sample, rfl⟩
      | some sent => exact ⟨_, congrArg some (merge_requestBody _ _ _ _ _ _)⟩

theorem PathItem.prevails_toJson (item : PathItem) (sample : Json) : item.Prevails (item.toJson sample) :=
  ⟨_, rfl, .of_map fun operation _ => operation.prevails_toJson sample⟩

theorem PathItem.Prevails.merge (h : before.Prevails old) (hreplaces : item.Replaces before) (sample : Json) :
    item.Prevails (old.merge (item.toJson sample)) := by
  obtain ⟨members, rfl, hmembers⟩ := h
  refine ⟨_, Json.merge_object _ _, hmembers.merge ?_ hreplaces.operations hreplaces.verbs⟩
  exact fun operation other value hoperation hvalue => hvalue.merge hoperation sample

end Merge

section Replaces

variable (names names' : Names)

theorem replaces_one (status status' description description' : String) :
    (one names status description).Replaces (one names' status' description') :=
  congrArg some (merge_reference _ _)

theorem replaces_many : (many names).Replaces (many names') :=
  congrArg some ((merge_listOf _ _).trans (congrArg listOf (merge_reference _ _)))

theorem replaces_notFound : (notFound names).Replaces (notFound names') := rfl

theorem replaces_collection : (collection names).Replaces (collection names') where
  operations :=
    .cons ⟨rfl, .cons ⟨rfl, replaces_many names names'⟩ .nil, by simp, fun _ => rfl⟩
      (.cons ⟨rfl, .cons ⟨rfl, replaces_one names names' _ _ _ _⟩ .nil, by simp, by simp⟩ .nil)
  verbs := by simp [collection, Verb.name]

theorem replaces_search (entity other : Entity) : (search names entity).Replaces (search names' other) where
  operations := .cons ⟨rfl, .cons ⟨rfl, replaces_many names names'⟩ .nil, by simp, fun _ => rfl⟩ .nil
  verbs := by simp [search]

theorem replaces_single (entity other : Entity) : (single names entity).Replaces (single names' other) where
  operations := by
    have hone (description description' : String) := replaces_one names names' "200" "200" description description'
    have hmissing := replaces_notFound names names'
    refine .cons ⟨rfl, .cons ⟨rfl, hone _ _⟩ (.cons ⟨rfl, hmissing⟩ .nil), ?_, fun _ => rfl⟩
      (.cons ⟨rfl, .cons ⟨rfl, hone _ _⟩ (.cons ⟨rfl, hmissing⟩ .nil), ?_, by simp⟩
        (.cons ⟨rfl, .cons ⟨rfl, hone _ _⟩ (.cons ⟨rfl, hmissing⟩ .nil), ?_, by simp⟩
          (.cons ⟨rfl, .cons ⟨rfl, rfl⟩ (.cons ⟨rfl, hmissing⟩ .nil), ?_, fun _ => rfl⟩ .nil)))
    all_goals simp [one, notFound]
  verbs := by simp [single, Verb.name]

/-- What an entity says of a path takes the place of what another one of its plural says there. -/
theorem replaces_pathItems {entity other : Entity} (h : other.directory = entity.directory) :
    List.Forall₂ (fun item before => before.path = item.path ∧ item.Replaces before) (pathItems entity)
      (pathItems other) := by
  have hpaths : (pathItems other).map PathItem.path = (pathItems entity).map PathItem.path := by
    rw [paths_eq, paths_eq, paths_of_directory h]
  simp only [pathItems, List.map_cons, List.map_nil, List.cons.injEq, and_true] at hpaths
  obtain ⟨hcollection, hsearch, hsingle⟩ := hpaths
  exact .cons ⟨hcollection, replaces_collection _ _⟩
    (.cons ⟨hsearch, replaces_search _ _ _ _⟩ (.cons ⟨hsingle, replaces_single _ _ _ _⟩ .nil))

end Replaces

theorem lists_pathEntries (entity : Entity) :
    Json.Lists PathItem.path PathItem.Prevails (pathItems entity) (pathEntries entity) :=
  .of_map fun item _ => item.prevails_toJson _

section Speakers

variable {speakers : Entries Entity} {paths : Entries Json}

/-- An entity takes the place of the one that has had the last word at its paths, or comes last. -/
theorem lists_put (hkeys : ∀ entry ∈ speakers, entry.1 = entry.2.directory)
    (h : Json.Lists PathItem.path PathItem.Prevails (speakers.flatMap fun entry => pathItems entry.2) paths)
    (entity : Entity) :
    Json.Lists PathItem.path PathItem.Prevails
      ((speakers.put entity.directory entity).flatMap fun entry => pathItems entry.2)
      (mergeMembers paths (pathEntries entity)) := by
  have hnodup := nodup_pathEntries entity
  have hnew : (pathEntries entity).map Prod.fst = entity.paths := by rw [keys_pathEntries, paths_eq]
  induction speakers generalizing paths with
  | nil =>
    cases h
    rw [Json.mergeMembers_of_nodup (by rwa [List.nil_append]), List.nil_append]
    exact (lists_pathEntries entity).append .nil
  | cons entry speakers ih =>
    obtain ⟨directory, first⟩ := entry
    obtain ⟨hfirst, hothers⟩ := List.forall_mem_cons.1 hkeys
    obtain rfl : directory = first.directory := hfirst
    rw [List.flatMap_cons] at h
    obtain ⟨own, rest, rfl, hown, hrest⟩ := h.of_append
    have hold : own.keys = first.paths := by rw [hown.keys_eq, paths_eq]
    rw [Entries.put]
    split
    · next hsame =>
      have hsames : own.keys = (pathEntries entity).map Prod.fst := by
        rw [hold, hnew, paths_of_directory hsame]
      rw [Json.mergeMembers_append_of_keys hsames hnodup, List.flatMap_cons]
      refine Json.Lists.append (hown.merge ?_ (replaces_pathItems hsame) (nodup_paths entity)) hrest
      exact fun item before old hitem hvalue => hvalue.merge hitem _
    · next hother =>
      have hdisjoint : ∀ path ∈ own.keys, path ∉ (pathEntries entity).map Prod.fst := by
        rw [hold, hnew]
        exact fun path hmem hpath => hother (directory_of_paths hmem hpath)
      rw [Json.mergeMembers_append_of_disjoint hdisjoint, List.flatMap_cons]
      exact hown.append (ih hothers hrest)

/-- So at any time the paths are those of the entities that have had the last word so far. -/
theorem lists_putAll (hkeys : ∀ entry ∈ speakers, entry.1 = entry.2.directory)
    (h : Json.Lists PathItem.path PathItem.Prevails (speakers.flatMap fun entry => pathItems entry.2) paths)
    (entities : List Entity) :
    Json.Lists PathItem.path PathItem.Prevails
      ((speakers.putAll (entities.map fun entity => (entity.directory, entity))).flatMap fun entry =>
        pathItems entry.2)
      ((entities.map pathEntries).foldl mergeMembers paths) := by
  induction entities generalizing speakers paths with
  | nil => exact h
  | cons entity entities ih =>
    refine ih (fun entry hentry => ?_) (lists_put hkeys h entity)
    rcases Entries.mem_of_mem_put hentry with rfl | hentry
    · rfl
    · exact hkeys entry hentry

end Speakers

end OpenApi

namespace PublishedApi

/-- Everything that can be done at the paths of a document. -/
def operations (document : Json) : List Json :=
  (document.get? "paths").toList.flatMap fun paths => paths.values.flatMap Json.values

theorem prevailing_of_lists {items : List OpenApi.PathItem} {paths : Entries Json}
    (h : Json.Lists OpenApi.PathItem.path OpenApi.PathItem.Prevails items paths) :
    List.Forall₂ OpenApi.Operation.Prevails (items.flatMap OpenApi.PathItem.operations)
      ((Json.object paths).values.flatMap Json.values) := by
  rw [Json.values, List.flatMap_map]
  refine List.rel_flatMap h ?_
  rintro item ⟨path, _⟩ ⟨-, members, rfl, hmembers⟩
  change List.Forall₂ _ item.operations (members.map Prod.snd)
  rw [List.forall₂_map_right_iff]
  exact hmembers.imp fun operation member hmember => hmember.2

end PublishedApi

/-- The operations of the published document are those of the entities that have the last word, one for one. -/
theorem prevailing_of_generate {schema : Schema} {policy : OwnerPolicy} {layout : Layout}
    {artifacts : List Artifact} (h : schema.generate policy layout = .ok artifacts) :
    ∃ document, Artifact.published? layout artifacts = some document ∧
      Published schema.api ((schema.entities.map OpenApi.pathEntries).foldl mergeMembers [])
        ((schema.entities.map OpenApi.schemas).foldl mergeMembers []) document ∧
      List.Forall₂ OpenApi.Operation.Prevails (schema.speakers.flatMap Entity.operations)
        (PublishedApi.operations document) := by
  obtain ⟨document, hread, hpublished⟩ := published_of_generate h
  refine ⟨document, hread, hpublished, ?_⟩
  have hnone : Json.Lists OpenApi.PathItem.path OpenApi.PathItem.Prevails [] [] := .nil
  have hlists := OpenApi.lists_putAll (List.forall_mem_nil _) hnone schema.entities
  have hprevails := PublishedApi.prevailing_of_lists hlists
  rw [List.flatMap_assoc] at hprevails
  rw [PublishedApi.operations, hpublished.paths, Option.toList_some, List.flatMap_singleton, Schema.speakers,
    List.flatMap_map]
  exact hprevails

end EntityForge
