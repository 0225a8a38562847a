import EntityForge.Proofs.Json.Records
import EntityForge.Proofs.Json.Source
import EntityForge.Proofs.WellFormed

/-!
A schema has everything in the order of the text that it comes from.

The entities follow the models, the fields of each one the fields of its model, and its relations are those of its
block, kind by kind, where those of one kind follow their targets. A key that is repeated has its first place and
what came last for it. Main statements: `Schema.keeps_of_load` and `Schema.keeps_of_ofText`.
-/

namespace EntityForge

open Json (Node Record Follows)
open Json.Record (Component)

/-- The kinds in the order in which the relations of an entity stand. -/
def RelationKind.all : List RelationKind := [.hasOne, .hasMany, .belongsToOne, .belongsToMany]

def Entity.relationsOf (entity : Entity) (kind : RelationKind) : List Relation :=
  entity.relations.filter fun relation => relation.kind == kind

namespace RelationBlock

def entries (block : RelationBlock) : RelationKind → Entries RelationDecl
  | .hasOne => block.hasOne
  | .hasMany => block.hasMany
  | .belongsToOne => block.belongsToOne
  | .belongsToMany => block.belongsToMany

theorem relations_eq_flatMap (block : RelationBlock) :
    block.relations = RelationKind.all.flatMap fun kind => ofKind kind (block.entries kind) := by
  simp [relations, RelationKind.all, entries]

theorem filter_ofKind (kind other : RelationKind) (declared : Entries RelationDecl) :
    (ofKind other declared).filter (fun relation => relation.kind == kind) =
      if other = kind then ofKind other declared else [] := by
  have hkind : ∀ relation ∈ ofKind other declared, relation.kind = other := by
    intro relation hrelation
    obtain ⟨entry, -, rfl⟩ := List.mem_map.1 hrelation
    rfl
  split
  · next hsame => exact List.filter_eq_self.2 fun relation hrelation => by simp [hkind relation hrelation, hsame]
  · next hne => exact List.filter_eq_nil_iff.2 fun relation hrelation => by simp [hkind relation hrelation, hne]

theorem filter_relations (block : RelationBlock) (kind : RelationKind) :
    block.relations.filter (fun relation => relation.kind == kind) = ofKind kind (block.entries kind) := by
  simp only [relations, List.filter_append, filter_ofKind]
  cases kind <;> simp [entries]

end RelationBlock

namespace Document

/-- The relations of one kind in a block, under their targets. -/
def targetsIn (block : Node) (kind : RelationKind) : Entries Node := relationBlockRecord.mapAt block kind.name

theorem follows_targets {room : Nat} {node : Node} {block : RelationBlock}
    (h : relationBlockRecord.read room node = .ok block) (kind : RelationKind) :
    Follows Prod.fst (fun part entry => ∃ inner, relationRecord.read inner part = .ok entry.2)
      (targetsIn node kind) (block.entries kind) := by
  have hcomponent : Component relationBlockRecord.fields kind.name (Node.readEntries relationRecord.read)
      fun block => block.entries kind := by
    cases kind with
    | hasOne =>
      refine .store (.skip (.skip (.skip (.nil _ _ _) ?_ ?_) ?_ ?_) ?_ ?_) ?_ <;>
        first | exact fun _ _ => rfl | decide
    | hasMany =>
      refine .skip (.store (.skip (.skip (.nil _ _ _) ?_ ?_) ?_ ?_) ?_) ?_ ?_ <;>
        first | exact fun _ _ => rfl | decide
    | belongsToOne =>
      refine .skip (.skip (.store (.skip (.nil _ _ _) ?_ ?_) ?_) ?_ ?_) ?_ ?_ <;>
        first | exact fun _ _ => rfl | decide
    | belongsToMany =>
      refine .skip (.skip (.skip (.store (.nil _ _ _) ?_) ?_ ?_) ?_ ?_) ?_ ?_ <;>
        first | exact fun _ _ => rfl | decide
  refine Record.follows_of_read hcomponent (by decide) ?_ ?_ h
  · cases kind <;> decide
  · cases kind <;> rfl

end Document

/-- A field is as a part of the text declares it. -/
def Field.DeclaredBy (part : Node) (field : Field) : Prop :=
  ∃ room decl, Document.fieldRecord.read room part = .ok decl ∧ decl.load field.name = .ok field

/-- A relation is as a part of the text declares it. -/
def Relation.DeclaredBy (kind : RelationKind) (part : Node) (relation : Relation) : Prop :=
  ∃ room decl, Document.relationRecord.read room part = .ok decl ∧
    RelationBlock.ofKind kind [(relation.target, decl)] = [relation]

/-- An entity is as a model of the text declares it, with its fields in the order of that model. -/
structure Entity.DeclaredBy (model : Node) (entity : Entity) : Prop where
  read : ∃ room decl, Document.modelRecord.read room model = .ok decl ∧
    decl.load entity.name = .ok entity.bare
  fields : Follows Field.name Field.DeclaredBy (Document.fieldsIn model) entity.fields

/-- The relations of an entity stand kind by kind, and those of each kind in the order of its block. -/
structure Entity.RelatesBy (blocks : Entries Node) (entity : Entity) : Prop where
  kinds : entity.relations = RelationKind.all.flatMap entity.relationsOf
  block : ∀ block, blocks.IsLast entity.name block → ∀ kind,
    Follows Relation.target (Relation.DeclaredBy kind) (Document.targetsIn block kind)
      (entity.relationsOf kind)
  noBlock : entity.name ∉ blocks.map Prod.fst → entity.relations = []

/-- A schema keeps the order of a text. -/
structure Schema.Keeps (root : Node) (schema : Schema) : Prop where
  entities : Follows Entity.name Entity.DeclaredBy (Document.modelsIn root) schema.entities
  relations : ∀ entity ∈ schema.entities, entity.RelatesBy (Document.blocksIn root)

theorem ModelDecl.declaredBy_of_load {room : Nat} {node : Node} {decl : ModelDecl}
    (hread : Document.modelRecord.read room node = .ok decl) {entity : Entity}
    (hload : decl.load entity.name = .ok entity.bare) : entity.DeclaredBy node := by
  refine ⟨⟨room, decl, hread, hload⟩, ?_⟩
  obtain ⟨fields, hfields, h⟩ := bind_eq_ok.1 hload
  have hsame : fields = entity.fields := by
    split at h
    · cases h
    · split at h
      · cases h
      · exact congrArg Entity.fields (pure_eq_ok.1 h)
  rw [← hsame]
  refine (Document.follows_fields hread).of_forall₂ (mapM_eq_ok.1 hfields) ?_ ?_
  · intro entry field hfield
    exact (FieldDecl.load_name hfield).symm
  · rintro part entry field ⟨inner, hpart⟩ hfield
    refine ⟨inner, entry.2, hpart, ?_⟩
    rw [FieldDecl.load_name hfield]
    exact hfield

namespace Schema

variable {root : Node} {room : Nat} {doc : Document} {schema : Schema}

theorem follows_entities (hread : Document.record.read room root = .ok doc) (hload : load doc = .ok schema) :
    Follows Entity.name Entity.DeclaredBy (Document.modelsIn root) schema.entities := by
  obtain ⟨-, entities, hentities, hbare⟩ := load_eq_ok hload
  obtain ⟨models, hmodels, hloaded⟩ := loadModels_eq_ok hentities
  -- a model is loaded without relations, so what is loaded of it is all but the relations of its entity
  have hplain : entities.map Entity.bare = entities := by
    conv_rhs => rw [← List.map_id entities]
    refine List.map_congr_left fun entity hentity => ?_
    obtain ⟨entry, -, hentry⟩ := exists_of_forall₂_right hloaded hentity
    rw [Entity.bare, ← (ModelDecl.load_eq_ok hentry).2.2.2]
    rfl
  rw [← hplain, ← hbare, List.forall₂_map_right_iff] at hloaded
  refine (Document.follows_models hread hmodels).of_forall₂ hloaded ?_ ?_
  · intro entry entity hentry
    exact (ModelDecl.load_names hentry).1.symm
  · rintro part entry entity ⟨inner, hpart⟩ hentry
    refine ModelDecl.declaredBy_of_load hpart ?_
    rwa [← Entity.bare_name, (ModelDecl.load_names hentry).1]

theorem follows_relations {block : Node} {decl : RelationBlock}
    (hread : Document.relationBlockRecord.read room block = .ok decl) {entity : Entity}
    (hrelations : entity.relations = decl.relations) (kind : RelationKind) :
    Follows Relation.target (Relation.DeclaredBy kind) (Document.targetsIn block kind)
      (entity.relationsOf kind) := by
  rw [Entity.relationsOf, hrelations, RelationBlock.filter_relations]
  have hall : List.Forall₂ (fun entry relation => RelationBlock.ofKind kind [entry] = [relation])
      (decl.entries kind) (RelationBlock.ofKind kind (decl.entries kind)) := by
    rw [RelationBlock.ofKind, List.forall₂_map_right_iff]
    exact List.forall₂_same.2 fun _ _ => rfl
  have htarget (entry : String × RelationDecl) (relation : Relation)
      (h : RelationBlock.ofKind kind [entry] = [relation]) : entry.1 = relation.target := by
    obtain rfl := List.singleton_injective h
    rfl
  refine (Document.follows_targets hread kind).of_forall₂ hall htarget ?_
  rintro part entry relation ⟨inner, hpart⟩ hrelation
  exact ⟨inner, entry.2, hpart, htarget entry relation hrelation ▸ hrelation⟩

theorem relatesBy_of_load (hread : Document.record.read room root = .ok doc) (hload : load doc = .ok schema)
    {entity : Entity} (hentity : entity ∈ schema.entities) :
    entity.RelatesBy (Document.blocksIn root) := by
  have hblocks := Document.nodup_owners_of_read hread
  have hrelations := (arranges_of_load (Document.keyed_of_read hread) hblocks hload).relations entity hentity
  have hfollows := Document.follows_blocks hread
  have hkeys : entity.name ∈ (Document.blocksIn root).map Prod.fst ↔
      entity.name ∈ doc.relationships.keys := by
    rw [← List.mem_eraseDups, ← hfollows.keys]
    rfl
  cases hdecl : doc.relationships.get? entity.name with
  | none =>
    have hnone := Entries.get?_eq_none_iff.1 hdecl
    rw [hdecl] at hrelations
    refine ⟨?_, fun block hlast => absurd (hkeys.1 hlast.mem_keys) hnone, fun _ => hrelations⟩
    simp [Entity.relationsOf, show entity.relations = [] from hrelations]
  | some decl =>
    have hmem := (Entries.get?_eq_some_iff hblocks).1 hdecl
    rw [hdecl] at hrelations
    refine ⟨?_, ?_, fun hno => absurd (hkeys.2 (List.mem_map_of_mem hmem)) hno⟩
    · calc
        entity.relations = decl.relations := hrelations
        _ = RelationKind.all.flatMap fun kind => RelationBlock.ofKind kind (decl.entries kind) :=
          decl.relations_eq_flatMap
        _ = RelationKind.all.flatMap entity.relationsOf := by
          congr 1
          funext kind
          rw [Entity.relationsOf, show entity.relations = decl.relations from hrelations,
            RelationBlock.filter_relations]
    · intro block hlast kind
      obtain ⟨part, hpart, inner, hinner⟩ := hfollows.made _ hmem
      obtain rfl := hpart.unique hlast
      exact follows_relations hinner hrelations kind

theorem keeps_of_load (hread : Document.record.read room root = .ok doc) (hload : load doc = .ok schema) :
    schema.Keeps root :=
  ⟨follows_entities hread hload, fun _ hentity => relatesBy_of_load hread hload hentity⟩

/-- A schema keeps the order of its text: that of the tree whose lexemes are those of the text. -/
theorem keeps_of_ofText {text : String} (h : ofText text = .ok schema) :
    ∃ root, Json.lex text = root.lexemes ∧ schema.Keeps root := by
  obtain ⟨doc, hdoc, hload⟩ := bind_eq_ok.1 h
  obtain ⟨value, hvalue, hrest⟩ := bind_eq_ok.1 (mapError_eq_ok.1 hdoc)
  split at hrest
  · next hend =>
    obtain rfl := pure_eq_ok.1 hrest
    refine ⟨(Node.ofText text).1, ?_, keeps_of_load hvalue (mapError_eq_ok.1 hload)⟩
    have hrest : (Node.ofText text).2 = [] := List.isEmpty_iff.1 hend
    rw [Json.lex_eq_lexemes (Record.untorn_of_read hvalue), hrest, List.append_nil]
  · cases hrest

end Schema

end EntityForge
