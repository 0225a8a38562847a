import EntityForge.Generation
import EntityForge.Proofs.Json.Records

/-!
What a schema takes over from the document that it was made from.

The maps of a document that was read follow the members of the tree that they come from, so that none holds a key
twice. So the entities of its schema have different names, and so have the fields of each entity; attaching
relations changes neither. Main statements: `keyed_of_parse` and `keyed_of_load`.
-/

namespace EntityForge

open Json (Node Record Follows)
open Json.Record (Component)

namespace Document

/-- The models of a text, under their keys and in their order. -/
def modelsIn (root : Node) : Entries Node := record.mapAt root "models"

/-- The fields of a model. -/
def fieldsIn (model : Node) : Entries Node := modelRecord.mapAt model "fields"

/-- The relationships of a text, block by block. -/
def blocksIn (root : Node) : Entries Node := record.mapAt root "relationships"

theorem follows_fields {room : Nat} {node : Node} {decl : ModelDecl}
    (h : modelRecord.read room node = .ok decl) :
    Follows Prod.fst (fun part entry => ∃ inner, fieldRecord.read inner part = .ok entry.2) (fieldsIn node)
      decl.fields := by
  have hcomponent : Component modelRecord.fields "fields" (Node.readEntries fieldRecord.read)
      ModelDecl.fields := by
    refine .skip (.store (.skip (.nil _ _ _) ?_ ?_) ?_) ?_ ?_ <;> first | exact fun _ _ => rfl | decide
  exact Record.follows_of_read hcomponent (by decide) (by decide) rfl h

theorem follows_blocks {room : Nat} {root : Node} {doc : Document} (h : record.read room root = .ok doc) :
    Follows Prod.fst (fun part entry => ∃ inner, relationBlockRecord.read inner part = .ok entry.2)
      (blocksIn root) doc.relationships := by
  have hcomponent : Component record.fields "relationships" (Node.readEntries relationBlockRecord.read)
      Document.relationships := by
    refine .skip (.store (.skip (.nil _ _ _) ?_ ?_) ?_) ?_ ?_ <;> first | exact fun _ _ => rfl | decide
  exact Record.follows_of_read hcomponent (by decide) (by decide) rfl h

theorem follows_models {room : Nat} {root : Node} {doc : Document} (h : record.read room root = .ok doc)
    {models : Entries ModelDecl} (hmodels : doc.models = some models) :
    Follows Prod.fst (fun part entry => ∃ inner, modelRecord.read inner part = .ok entry.2) (modelsIn root)
      models := by
  have hcomponent : Component record.fields "models" (optional (Node.readEntries modelRecord.read))
      Document.models := by
    refine .store (.skip (.skip (.nil _ _ _) ?_ ?_) ?_ ?_) ?_ <;> first | exact fun _ _ => rfl | decide
  obtain ⟨inner, htakes⟩ := Record.read_component hcomponent (by decide) (by decide) h
  rw [hmodels] at htakes
  unfold modelsIn Record.mapAt
  cases hpart : record.part? root "models" with
  | none =>
    rw [hpart] at htakes
    cases htakes
  | some part =>
    rw [hpart] at htakes
    exact Node.follows_of_readEntries (Node.readOptional_spec htakes models rfl)

/-- No model is declared twice, and no field of a model. -/
structure Keyed (doc : Document) : Prop where
  models : ∀ models ∈ doc.models, models.keys.Nodup
  fields : ∀ models ∈ doc.models, ∀ entry ∈ models, entry.2.fields.keys.Nodup

theorem keyed_of_read {room : Nat} {root : Node} {doc : Document} (h : record.read room root = .ok doc) :
    doc.Keyed where
  models _ hmodels := (follows_models h hmodels).nodup
  fields models hmodels entry hentry := by
    obtain ⟨part, -, inner, hmodel⟩ := (follows_models h hmodels).made entry hentry
    exact (follows_fields hmodel).nodup

theorem nodup_owners_of_read {room : Nat} {root : Node} {doc : Document}
    (h : record.read room root = .ok doc) : doc.relationships.keys.Nodup :=
  (follows_blocks h).nodup

theorem exists_read_of_parse {text : String} {doc : Document} (h : parse text = .ok doc) :
    ∃ room node, record.read room node = .ok doc := by
  obtain ⟨value, hvalue, h⟩ := bind_eq_ok.1 h
  split at h
  · obtain rfl := pure_eq_ok.1 h
    exact ⟨_, _, hvalue⟩
  · cases h

/-- Every document that is read is keyed, whatever its text repeats. -/
theorem keyed_of_parse {text : String} {doc : Document} (h : parse text = .ok doc) :
    doc.Keyed := by
  obtain ⟨room, node, hread⟩ := exists_read_of_parse h
  exact keyed_of_read hread

/-- So no owner has two blocks of relations in it. -/
theorem nodup_owners_of_parse {text : String} {doc : Document} (h : parse text = .ok doc) :
    doc.relationships.keys.Nodup := by
  obtain ⟨room, node, hread⟩ := exists_read_of_parse h
  exact nodup_owners_of_read hread

end Document

/-- Among values whose names differ, one is found by its name. -/
theorem find?_eq_some_iff_of_nodup {α : Type} {nameOf : α → String} {values : List α}
    (h : (values.map nameOf).Nodup) {name : String} {value : α} :
    values.find? (fun v => nameOf v == name) = some value ↔
      value ∈ values ∧ nameOf value = name := by
  constructor
  · intro hfind
    exact ⟨List.mem_of_find?_eq_some hfind, by simpa using List.find?_some hfind⟩
  · rintro ⟨hmem, rfl⟩
    cases hfind : values.find? (fun v => nameOf v == nameOf value) with
    | none =>
      have hother := List.find?_eq_none.1 hfind value hmem
      simp at hother
    | some found =>
      have hname : nameOf found = nameOf value := by simpa using List.find?_some hfind
      rw [List.inj_on_of_nodup_map h (List.mem_of_find?_eq_some hfind) hmem hname]

/-- An entity as its model declares it. -/
def Entity.bare (entity : Entity) : Entity := { entity with relations := [] }

@[simp] theorem Entity.bare_name (entity : Entity) : entity.bare.name = entity.name := rfl

@[simp] theorem Entity.bare_fields (entity : Entity) : entity.bare.fields = entity.fields := rfl

theorem FieldDecl.load_name {name : String} {decl : FieldDecl} {field : Field}
    (h : decl.load name = .ok field) : field.name = name := by
  unfold load at h
  split at h
  · cases h
  · cases h
    rfl

namespace ModelDecl

/-- The loaded fields are those that the model declares. -/
theorem names_of_fields {decl : ModelDecl} {fields : List Field}
    (h : List.Forall₂ (fun entry field => entry.2.load entry.1 = .ok field) decl.fields fields) :
    fields.map Field.name = decl.fields.keys :=
  map_eq_map_of_forall₂ h fun _ _ hfield => FieldDecl.load_name hfield

/-- An entity has the name and the fields of its model. -/
theorem load_names {name : String} {decl : ModelDecl} {entity : Entity}
    (h : decl.load name = .ok entity) :
    entity.name = name ∧ entity.fields.map Field.name = decl.fields.keys := by
  obtain ⟨fields, hfields, h⟩ := bind_eq_ok.1 h
  split at h
  · cases h
  · split at h
    · cases h
    · obtain rfl := pure_eq_ok.1 h
      exact ⟨rfl, names_of_fields (mapM_eq_ok.1 hfields)⟩

end ModelDecl

namespace Schema

theorem loadModels_eq_ok {doc : Document} {entities : List Entity}
    (h : loadModels doc = .ok entities) : ∃ models, doc.models = some models ∧
      List.Forall₂ (fun entry entity => entry.2.load entry.1 = .ok entity) models entities := by
  unfold loadModels at h
  split at h
  · cases h
  · cases h
  · next models _ hmodels => exact ⟨models, hmodels, mapM_eq_ok.1 h⟩

theorem names_of_loaded {models : Entries ModelDecl} {entities : List Entity}
    (h : List.Forall₂ (fun entry entity => entry.2.load entry.1 = .ok entity) models entities) :
    entities.map Entity.name = models.keys :=
  map_eq_map_of_forall₂ h fun _ _ hentity => (ModelDecl.load_names hentity).1

/-- The relations of a block are attached to entities that stay the same otherwise. -/
theorem bare_attach {entities next : List Entity} {owner : String} {block : RelationBlock}
    (h : attach entities owner block = .ok next) :
    next.map Entity.bare = entities.map Entity.bare := by
  unfold attach at h
  split at h
  · split at h
    · cases h
      rfl
    · cases h
  · split at h
    · cases h
    · cases h
      rw [List.map_map]
      apply List.map_congr_left
      intro entity _
      rw [Function.comp_apply]
      split
      · rfl
      · rfl

theorem bare_attachAll {blocks : List (String × RelationBlock)} {entities attached : List Entity}
    (h : attachAll entities blocks = .ok attached) :
    attached.map Entity.bare = entities.map Entity.bare := by
  induction blocks generalizing entities with
  | nil =>
    cases h
    rfl
  | cons block blocks ih =>
    obtain ⟨next, hnext, h⟩ := bind_eq_ok.1 h
    rw [ih h, bare_attach hnext]

theorem names_of_bare {entities next : List Entity}
    (h : next.map Entity.bare = entities.map Entity.bare) :
    next.map Entity.name = entities.map Entity.name := by
  have hnames := congrArg (List.map Entity.name) h
  simpa only [List.map_map, Function.comp_def, Entity.bare_name] using hnames

/-- The entities of a schema are those of its document, with relations. -/
theorem load_eq_ok {doc : Document} {schema : Schema} (h : load doc = .ok schema) :
    schema.api = doc.api ∧ ∃ entities, loadModels doc = .ok entities ∧
      schema.entities.map Entity.bare = entities.map Entity.bare := by
  obtain ⟨entities, hentities, h⟩ := bind_eq_ok.1 h
  obtain ⟨attached, hattached, h⟩ := bind_eq_ok.1 h
  obtain rfl := pure_eq_ok.1 h
  exact ⟨rfl, entities, hentities, bare_attachAll hattached⟩

/-- No two entities have one name, and no two fields of an entity. -/
structure Keyed (schema : Schema) : Prop where
  names : (schema.entities.map Entity.name).Nodup
  fields : ∀ entity ∈ schema.entities, (entity.fields.map Field.name).Nodup

/-- A schema is keyed because its document is. -/
theorem keyed_of_load {doc : Document} (hkeyed : doc.Keyed) {schema : Schema}
    (h : load doc = .ok schema) : schema.Keyed := by
  obtain ⟨-, entities, hentities, hbare⟩ := load_eq_ok h
  obtain ⟨models, hmodels, hloaded⟩ := loadModels_eq_ok hentities
  constructor
  · rw [names_of_bare hbare, names_of_loaded hloaded]
    exact hkeyed.models models hmodels
  · intro entity hentity
    have hmem : entity.bare ∈ entities.map Entity.bare := by
      rw [← hbare]
      exact List.mem_map_of_mem hentity
    obtain ⟨plain, hplain, hsame⟩ := List.mem_map.1 hmem
    obtain ⟨entry, hentry, hload⟩ := exists_of_forall₂_right hloaded hplain
    rw [← Entity.bare_fields, ← hsame, Entity.bare_fields, (ModelDecl.load_names hload).2]
    exact hkeyed.fields models hmodels entry hentry

/-- Every schema that comes from a text is keyed. -/
theorem keyed_of_ofText {text : String} {schema : Schema} (h : ofText text = .ok schema) :
    schema.Keyed := by
  obtain ⟨doc, hdoc, h⟩ := bind_eq_ok.1 h
  exact keyed_of_load (Document.keyed_of_parse (mapError_eq_ok.1 hdoc)) (mapError_eq_ok.1 h)

end Schema

end EntityForge
