import EntityForge.Proofs.Soundness
import EntityForge.Surface.Graphql

/-!
What holds of every schema that is loaded.

The entities are made from the models first, and then the relations are attached block by block. An entity
is well-formed as its model is loaded, and attaching a block keeps it so: the names that the block adds are
new. So no surface of an entity names a member twice. Main statements: `ModelDecl.wellFormed_of_load`,
`Schema.attach_eq_ok` for one block and `Schema.wellFormed_attachAll` for all of them, and
`loaded_wellFormed`.
-/

namespace EntityForge

namespace Entity

structure WellFormed (entity : Entity) : Prop where
  fields : (entity.fields.map Field.name).Nodup
  key : entity.fields.countP Field.primaryKey ≤ 1
  indexes : ∀ index ∈ entity.indexes, ∀ name ∈ index.fields, ∃ field ∈ entity.fields, field.name = name
  relations : (entity.relations.map Relation.name).Nodup
  apart : ∀ relation ∈ entity.relations, ∀ field ∈ entity.fields, relation.name ≠ field.name

end Entity

namespace ModelDecl

/-- Everything that is checked of a model while its entity is made. -/
theorem load_eq_ok {name : String} {model : ModelDecl} {entity : Entity}
    (h : model.load name = .ok entity) :
    entity.fields.countP Field.primaryKey ≤ 1 ∧ strayIndexField? model.indexes entity.fields = none ∧
      entity.indexes = model.indexes.map (fun i => ⟨i.unique, i.fields⟩) ∧ entity.relations = [] := by
  obtain ⟨fields, -, h⟩ := bind_eq_ok.1 h
  split at h
  · cases h
  · next hkeys =>
    split at h
    · cases h
    · next hstray =>
      obtain rfl := pure_eq_ok.1 h
      exact ⟨Nat.le_of_not_lt hkeys, hstray, rfl, rfl⟩

theorem wellFormed_of_load {name : String} {model : ModelDecl} {entity : Entity}
    (hkeys : model.fields.keys.Nodup) (h : model.load name = .ok entity) : entity.WellFormed := by
  obtain ⟨hkey, hstray, hindexes, hrelations⟩ := load_eq_ok h
  constructor
  · rw [(load_names h).2]
    exact hkeys
  · exact hkey
  · intro index hindex field hfield
    rw [hindexes] at hindex
    obtain ⟨decl, hdecl, rfl⟩ := List.mem_map.1 hindex
    have hnamed : field ∈ model.indexes.flatMap IndexDecl.fields :=
      List.mem_flatMap.2 ⟨decl, hdecl, hfield⟩
    have hdeclared := List.find?_eq_none.1 hstray field hnamed
    simpa using hdeclared
  · rw [hrelations]
    exact List.nodup_nil
  · rw [hrelations]
    intro relation hrelation
    cases hrelation

end ModelDecl

/-- No name is repeated where the names differ and none of them is taken before. -/
theorem repeatedName?_eq_none_iff {known : List String} {relations : List Relation} :
    repeatedName? known relations = none ↔
      (relations.map Relation.name).Nodup ∧ ∀ relation ∈ relations, relation.name ∉ known := by
  induction relations generalizing known with
  | nil => simp [repeatedName?]
  | cons relation relations ih =>
    rw [repeatedName?]
    split
    · next htaken => simp_all
    · next hfree =>
      rw [ih]
      simp only [List.map_cons, List.nodup_cons, List.mem_map, List.mem_cons, not_or, not_exists,
        not_and, forall_eq_or_imp]
      simp only [List.contains_iff_mem] at hfree
      constructor
      · rintro ⟨hnodup, hrest⟩
        exact ⟨⟨fun other hother => (hrest other hother).1, hnodup⟩, hfree,
          fun other hother => (hrest other hother).2⟩
      · rintro ⟨⟨hnew, hnodup⟩, -, hrest⟩
        exact ⟨hnodup, fun other hother => ⟨hnew other hother, hrest other hother⟩⟩

/-- The targets of a block are those of its relations. -/
theorem RelationBlock.targets_eq (block : RelationBlock) :
    block.targets = block.relations.map Relation.target := by
  have hkind (kind : RelationKind) (entries : Entries RelationDecl) :
      (ofKind kind entries).map Relation.target = entries.keys := by
    rw [ofKind, List.map_map]
    rfl
  simp only [targets, relations, List.map_append, hkind]

namespace Schema

variable {entities next attached : List Entity} {owner : String} {block : RelationBlock}

/-- A block is attached to its owner, whose members it names anew. A block without an owner is empty. -/
theorem attach_eq_ok (h : attach entities owner block = .ok next) :
    next = entities.map (fun entity =>
        if entity.name = owner then { entity with relations := block.relations } else entity) ∧
      (block.relations = [] ∨ ∃ entity ∈ entities, entity.name = owner ∧
        repeatedName? (entity.fields.map Field.name) block.relations = none) := by
  unfold attach at h
  split at h
  · next hnone =>
    have hother : ∀ entity ∈ entities, ¬entity.name = owner := by
      simpa using List.find?_eq_none.1 hnone
    split at h
    · next htargets =>
      obtain rfl := Except.ok.inj h
      rw [RelationBlock.targets_eq, List.map_eq_nil_iff] at htargets
      refine ⟨?_, Or.inl htargets⟩
      conv_lhs => rw [← List.map_id entities]
      refine List.map_congr_left fun entity hentity => ?_
      rw [if_neg (hother entity hentity), id]
    · cases h
  · next entity hfind =>
    split at h
    · cases h
    · next hfree =>
      obtain rfl := Except.ok.inj h
      have hname : entity.name = owner := by simpa using List.find?_some hfind
      refine ⟨?_, Or.inr ⟨entity, List.mem_of_find?_eq_some hfind, hname, hfree⟩⟩
      refine List.map_congr_left fun other _ => ?_
      simp

/-- What a block has been compared with is the very entity that it is attached to, as no other one has the
name. -/
theorem wellFormed_attach (hnames : (entities.map Entity.name).Nodup)
    (hentities : ∀ entity ∈ entities, entity.WellFormed)
    (h : attach entities owner block = .ok next) : ∀ entity ∈ next, entity.WellFormed := by
  obtain ⟨rfl, hblock⟩ := attach_eq_ok h
  intro entity hentity
  obtain ⟨plain, hplain, rfl⟩ := List.mem_map.1 hentity
  have hwell := hentities plain hplain
  split
  · next howner =>
    have hfree : (block.relations.map Relation.name).Nodup ∧
        ∀ relation ∈ block.relations, relation.name ∉ plain.fields.map Field.name := by
      rcases hblock with hempty | ⟨checked, hchecked, hname, hfree⟩
      · simp [hempty]
      · obtain rfl : checked = plain :=
          List.inj_on_of_nodup_map hnames hchecked hplain (hname.trans howner.symm)
        exact repeatedName?_eq_none_iff.1 hfree
    refine ⟨hwell.fields, hwell.key, hwell.indexes, hfree.1, ?_⟩
    intro relation hrelation field hfield hsame
    exact hfree.2 relation hrelation (List.mem_map.2 ⟨field, hfield, hsame.symm⟩)
  · exact hwell

theorem wellFormed_attachAll {blocks : List (String × RelationBlock)}
    (hnames : (entities.map Entity.name).Nodup) (hentities : ∀ entity ∈ entities, entity.WellFormed)
    (h : attachAll entities blocks = .ok attached) : ∀ entity ∈ attached, entity.WellFormed := by
  induction blocks generalizing entities with
  | nil =>
    cases h
    exact hentities
  | cons block blocks ih =>
    obtain ⟨next, hnext, h⟩ := bind_eq_ok.1 h
    have hsame := names_of_bare (bare_attach hnext)
    exact ih (hsame ▸ hnames) (wellFormed_attach hnames hentities hnext) h

/-- Where no owner has two blocks, each entity gets the relations of its own. -/
theorem attachAll_eq_ok {blocks : Entries RelationBlock} (hkeys : blocks.keys.Nodup)
    (h : attachAll entities blocks = .ok attached) :
    attached = entities.map fun entity =>
      match blocks.get? entity.name with
      | some block => { entity with relations := block.relations }
      | none => entity := by
  induction blocks generalizing entities with
  | nil =>
    cases h
    exact (List.map_id _).symm
  | cons entry blocks ih =>
    obtain ⟨owner, block⟩ := entry
    obtain ⟨next, hnext, h⟩ := bind_eq_ok.1 h
    obtain ⟨hnew, hrest⟩ := List.nodup_cons.1 hkeys
    obtain ⟨rfl, -⟩ := attach_eq_ok hnext
    rw [ih hrest h, List.map_map]
    refine List.map_congr_left fun entity _ => ?_
    rw [Function.comp_apply, Entries.get?]
    by_cases howner : entity.name = owner
    · have hno : Entries.get? blocks owner = none := Entries.get?_eq_none_iff.2 hnew
      simp [howner, hno]
    · have hother : ¬owner = entity.name := fun e => howner e.symm
      simp [howner, hother]

/-- No relation is lost: the owner of a block that has any is there. -/
theorem exists_owner_of_attachAll {blocks : List (String × RelationBlock)}
    (h : attachAll entities blocks = .ok attached) {entry : String × RelationBlock}
    (hentry : entry ∈ blocks) (hrelations : entry.2.relations ≠ []) :
    entry.1 ∈ entities.map Entity.name := by
  induction blocks generalizing entities with
  | nil => cases hentry
  | cons first blocks ih =>
    obtain ⟨next, hnext, h⟩ := bind_eq_ok.1 h
    rcases List.mem_cons.1 hentry with rfl | hentry
    · rcases (attach_eq_ok hnext).2 with hempty | ⟨entity, hentity, hname, -⟩
      · exact absurd hempty hrelations
      · exact List.mem_map.2 ⟨entity, hentity, hname⟩
    · rw [← names_of_bare (bare_attach hnext)]
      exact ih h hentry

structure WellFormed (schema : Schema) : Prop where
  nonempty : schema.entities ≠ []
  names : (schema.entities.map Entity.name).Nodup
  entities : ∀ entity ∈ schema.entities, entity.WellFormed

/-- A schema has the models of a document under their keys, and every relation where the document has it. -/
structure Arranges (schema : Schema) (doc : Document) : Prop where
  models : ∃ models, doc.models = some models ∧ schema.entities.map Entity.name = models.keys
  keys : ∀ entity ∈ schema.entities, schema.entity? entity.name = some entity
  relations : ∀ entity ∈ schema.entities, entity.relations =
    ((doc.relationships.get? entity.name).map RelationBlock.relations).getD []
  owners : ∀ entry ∈ doc.relationships, ∀ relation ∈ entry.2.relations,
    ∃ entity ∈ schema.entities, entity.name = entry.1 ∧ relation ∈ entity.relations

variable {doc : Document} {schema : Schema}

/-- The entities before any relation is attached, and what has been found of them. -/
theorem wellFormed_loadModels (hkeyed : doc.Keyed) (h : loadModels doc = .ok entities) :
    entities ≠ [] ∧ (∃ models, doc.models = some models ∧ entities.map Entity.name = models.keys) ∧
      ∀ entity ∈ entities, entity.WellFormed ∧ entity.relations = [] := by
  have hne : doc.models ≠ some [] := by
    intro hempty
    rw [loadModels, hempty] at h
    cases h
  obtain ⟨models, hmodels, hloaded⟩ := loadModels_eq_ok h
  refine ⟨?_, ⟨models, hmodels, names_of_loaded hloaded⟩, ?_⟩
  · rintro rfl
    obtain rfl := List.forall₂_nil_right_iff.1 hloaded
    exact hne hmodels
  · intro entity hentity
    obtain ⟨entry, hentry, hload⟩ := exists_of_forall₂_right hloaded hentity
    exact ⟨ModelDecl.wellFormed_of_load (hkeyed.fields models hmodels entry hentry) hload,
      (ModelDecl.load_eq_ok hload).2.2.2⟩

theorem wellFormed_of_load (hkeyed : doc.Keyed) (h : load doc = .ok schema) : schema.WellFormed := by
  have hnames := (keyed_of_load hkeyed h).names
  obtain ⟨entities, hentities, h⟩ := bind_eq_ok.1 h
  obtain ⟨attached, hattached, h⟩ := bind_eq_ok.1 h
  obtain rfl := pure_eq_ok.1 h
  obtain ⟨hne, -, hwell⟩ := wellFormed_loadModels hkeyed hentities
  have hsame := names_of_bare (bare_attachAll hattached)
  refine ⟨?_, hnames, ?_⟩
  · rintro rfl
    exact hne (List.map_eq_nil_iff.1 hsame.symm)
  · exact wellFormed_attachAll (hsame ▸ hnames) (fun entity hentity => (hwell entity hentity).1) hattached

theorem arranges_of_load (hkeyed : doc.Keyed) (hblocks : doc.relationships.keys.Nodup)
    (h : load doc = .ok schema) : schema.Arranges doc := by
  have hnames := (keyed_of_load hkeyed h).names
  obtain ⟨entities, hentities, h⟩ := bind_eq_ok.1 h
  obtain ⟨attached, hattached, h⟩ := bind_eq_ok.1 h
  obtain rfl := pure_eq_ok.1 h
  obtain ⟨-, ⟨models, hmodels, hkeys⟩, hwell⟩ := wellFormed_loadModels hkeyed hentities
  have hsame := names_of_bare (bare_attachAll hattached)
  have hrelations : ∀ entity ∈ attached, entity.relations =
      ((doc.relationships.get? entity.name).map RelationBlock.relations).getD [] := by
    rw [attachAll_eq_ok hblocks hattached]
    intro entity hentity
    obtain ⟨plain, hplain, rfl⟩ := List.mem_map.1 hentity
    cases hblock : doc.relationships.get? plain.name with
    | none => simp [hblock, (hwell plain hplain).2]
    | some block => simp [hblock]
  refine ⟨⟨models, hmodels, hsame.trans hkeys⟩, ?_, hrelations, ?_⟩
  · intro entity hentity
    exact (find?_eq_some_iff_of_nodup hnames).2 ⟨hentity, rfl⟩
  · intro entry hentry relation hrelation
    have hmem := exists_owner_of_attachAll hattached hentry (List.ne_nil_of_mem hrelation)
    rw [← hsame] at hmem
    obtain ⟨entity, hentity, hname⟩ := List.mem_map.1 hmem
    have hblock : doc.relationships.get? entity.name = some entry.2 := by
      rw [Entries.get?_eq_some_iff hblocks, hname]
      exact hentry
    refine ⟨entity, hentity, hname, ?_⟩
    rw [hrelations entity hentity, hblock]
    exact hrelation

/-- So it is for every text that a schema is read from. -/
theorem wellFormed_of_ofText {text : String} (h : ofText text = .ok schema) :
    schema.WellFormed ∧ ∃ doc, Document.parse text = .ok doc ∧ schema.Arranges doc := by
  obtain ⟨doc, hdoc, h⟩ := bind_eq_ok.1 h
  have hparse := mapError_eq_ok.1 hdoc
  have hload := mapError_eq_ok.1 h
  have hkeyed := Document.keyed_of_parse hparse
  exact ⟨wellFormed_of_load hkeyed hload, doc, hparse,
    arranges_of_load hkeyed (Document.nodup_owners_of_parse hparse) hload⟩

end Schema

theorem people_keyed : people.document.Keyed := ⟨by decide, by decide⟩

theorem people_load : Schema.load people.document = .ok people := by decide

end EntityForge
