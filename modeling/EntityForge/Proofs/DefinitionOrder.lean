import EntityForge.Proofs.Bindings
import EntityForge.Proofs.Emission

/-!
Definitions before uses, in the two files of models.

A file of Sequelize models defines every model and then associates them, and a file of Drizzle tables defines every
table and then relates them. So a statement may name any model of the schema, of an entity that comes later as well
as its own. It names no other, since a relation that resolves leads to entities of the schema alone. Main statement:
`definitions_precede_uses`.
-/

namespace EntityForge

open TypeScript

namespace TypeScript

/-- An item of a script uses these names after their definitions: wherever it stands, all definitions stand above
it in this order, and each name is the name of one of them. -/
structure Script.UsesAfter (script : Script) (definitions : List Declaration) (item : Item)
    (names : List String) : Prop where
  present : item ∈ script.items
  order : ∀ above below, script.items = above ++ item :: below →
    (definitions.map Item.declaration).Sublist above
  defined : names ⊆ definitions.map Declaration.name

/-- An item that is not in the first part of a script comes after all of it. -/
theorem Script.sublist_above {script : Script} {front back : List Item} (hitems : script.items = front ++ back)
    {item : Item} (hitem : item ∉ front) {definitions : List Item} (hfront : definitions.Sublist front)
    (above below : List Item) (hsplit : script.items = above ++ item :: below) : definitions.Sublist above := by
  rw [hitems] at hsplit
  rcases List.append_eq_append_iff.1 hsplit with ⟨rest, rfl, -⟩ | ⟨rest, rfl, hrest⟩
  · exact hfront.trans (List.sublist_append_left front rest)
  · cases rest with
    | nil => rwa [List.append_nil] at hfront
    | cons first rest =>
      obtain ⟨rfl, -⟩ := List.cons.inj hrest
      exact absurd (List.mem_append_right above List.mem_cons_self) hitem

theorem sublist_spaced (items : List Item) : items.Sublist (spaced items) := by
  unfold spaced
  induction items with
  | nil => exact .slnil
  | cons first rest ih =>
    cases rest with
    | nil => exact .refl _
    | cons second rest =>
      rw [List.intersperse_cons_cons]
      exact .cons_cons first (.cons blankLine ih)

theorem filterMap_spaced {α : Type} {f : Item → Option α} (h : f blankLine = none) (items : List Item) :
    (spaced items).filterMap f = items.filterMap f := by
  rw [spaced, List.filterMap_eq_flatMap_toList, List.filterMap_eq_flatMap_toList,
    flatMap_intersperse (by rw [h, Option.toList_none])]

theorem mem_or_eq_of_mem_spaced {items : List Item} {item : Item} (h : item ∈ spaced items) :
    item ∈ items ∨ item = blankLine := by
  unfold spaced at h
  induction items with
  | nil => exact Or.inl h
  | cons first rest ih =>
    cases rest with
    | nil => exact Or.inl h
    | cons second rest =>
      rw [List.intersperse_cons_cons] at h
      rcases List.mem_cons.1 h with rfl | h
      · exact Or.inl List.mem_cons_self
      · rcases List.mem_cons.1 h with rfl | h
        · exact Or.inr rfl
        · exact (ih h).imp_left (List.mem_cons_of_mem first)

end TypeScript

namespace Accessor

/-- The entities that the statements about an accessor are about, beside its owner. -/
def entities (accessor : Accessor) : List String :=
  accessor.target :: match accessor.association with
    | .direct lookup => [lookup.entity]
    | .joined through _ _ _ => [through]

/-- A relation that resolves leads to entities of the schema. -/
theorem entities_of_resolve {schema : Schema} {owner : Entity} {relation : Relation} {accessor : Accessor}
    (h : resolve schema owner relation = .ok accessor) : accessor.entities ⊆ schema.entities.map Entity.name := by
  have hname {name : String} {entity : Entity} (hfound : schema.entity? name = some entity) :
      name ∈ schema.entities.map Entity.name :=
    List.mem_map.2 ⟨entity, List.mem_of_find?_eq_some hfound, Schema.name_of_entity? hfound⟩
  obtain ⟨-, ⟨queried, hqueried, -⟩, hsecond⟩ := onColumns_of_resolve h
  obtain ⟨target, association, htarget, -, rfl⟩ := resolve_eq_ok.1 h
  rw [← Schema.name_of_entity? htarget] at htarget
  cases association with
  | direct lookup => exact List.cons_subset.2 ⟨hname htarget, List.cons_subset.2 ⟨hname hqueried, List.nil_subset _⟩⟩
  | joined through lookup joinColumn targetColumn =>
    obtain ⟨⟨join, hjoin, -⟩, -⟩ := hsecond
    exact List.cons_subset.2 ⟨hname htarget, List.cons_subset.2 ⟨hname hjoin, List.nil_subset _⟩⟩

end Accessor

/-- The models that a statement names: its owner, its target, and the one that it goes through. -/
def Sequelize.Association.models (association : Sequelize.Association) : List String :=
  association.source :: association.target :: association.through.toList

theorem Sequelize.Association.models_of (entity : Entity) (accessor : Accessor) :
    (of entity accessor).models ⊆ entity.name :: accessor.entities := by
  obtain ⟨kind, name, target, association⟩ := accessor
  cases association with
  | direct lookup => cases kind <;> simp [models, of, Accessor.entities]
  | joined through lookup joinColumn targetColumn => simp [models, of, Accessor.entities]

theorem Sequelize.Association.dot_mem_text (association : Sequelize.Association) : '.' ∈ association.text.toList := by
  simp [text, toString]

theorem Sequelize.Association.text_ne {association : Sequelize.Association} {other : String}
    (h : '.' ∉ other.toList) : association.text ≠ other := by
  rintro rfl
  exact h association.dot_mem_text

namespace Drizzle

/-- The table that a link leads to. -/
def Link.table : Link → String
  | .many table => table
  | .one table _ _ => table

/-- The tables that a block of relations names: its own, and those that its links lead to. -/
def Relations.tables (relations : Relations) : List String :=
  relations.table :: relations.entries.map fun entry => entry.link.table

theorem RelationEntry.table_of (accessor : Accessor) :
    (of accessor).link.table ∈ accessor.entities.map tableBinding := by
  obtain ⟨kind, name, target, association⟩ := accessor
  cases association with
  | direct lookup => cases kind <;> simp [of, Link.table, RelationKind.isMany, Accessor.entities]
  | joined through lookup joinColumn targetColumn => simp [of, Link.table, Accessor.entities]

/-- What stands after its name tells a table from a block of relations. -/
theorem Table.declaration_ne (table : Table) (relations : Relations) : table.declaration ≠ relations.declaration := by
  intro h
  have hbody := congrArg Declaration.body h
  simp [Table.declaration, Relations.declaration, constant, toString, ← String.toList_inj] at hbody

end Drizzle

namespace Aggregate

variable (subjects : List Subject)

/-- The definitions of all models. -/
def modelDefinitions : List Declaration := (subjects.map Sequelize.Model.of).map Sequelize.Model.declaration

/-- The definitions of all tables. -/
def tableDefinitions : List Declaration := (subjects.map Drizzle.Table.of).map Drizzle.Table.declaration

theorem names_modelDefinitions :
    (modelDefinitions subjects).map Declaration.name = subjects.map fun s => s.entity.name := by
  simp [modelDefinitions, Sequelize.Model.declaration, constant, Sequelize.Model.of]

theorem names_tableDefinitions : (tableDefinitions subjects).map Declaration.name = tables subjects := by
  simp [tableDefinitions, Drizzle.Table.declaration, constant, Drizzle.Table.of, tables]

/-- The definitions of all blocks of relations. -/
def blockDefinitions : List Declaration :=
  (subjects.filterMap Drizzle.Relations.of?).map Drizzle.Relations.declaration

theorem declarations_eq {α : Type} (of : α → Declaration) (values : List α) :
    declarations of values = spaced ((values.map of).map .declaration) := by
  rw [declarations, List.map_map]
  rfl

theorem items_sequelize : (sequelize subjects).items =
    spaced ((modelDefinitions subjects).map .declaration) ++ headed "Associations"
      ((subjects.flatMap Sequelize.associations).map fun association => .statement association.text) := by
  rw [sequelize, declarations_eq]
  rfl

theorem items_drizzle : (drizzle subjects).items =
    spaced ((tableDefinitions subjects).map .declaration) ++
      headed "Relations" (spaced ((blockDefinitions subjects).map .declaration)) := by
  rw [drizzle, declarations_eq, declarations_eq]
  rfl

theorem filterMap_headed {α : Type} {f : Item → Option α} (h : ∀ text, f (.statement text) = none)
    (heading : String) (items : List Item) : (headed heading items).filterMap f = items.filterMap f := by
  cases items with
  | nil => rfl
  | cons first rest => exact List.filterMap_cons_none (h _)

theorem mem_headed {heading : String} {items : List Item} {item : Item} (h : item ∈ items) :
    item ∈ headed heading items := by
  cases items with
  | nil => exact absurd h List.not_mem_nil
  | cons first rest => exact List.mem_cons_of_mem _ h

theorem declarations_sequelize : (sequelize subjects).declarations = modelDefinitions subjects := by
  rw [Script.declarations, items_sequelize, List.filterMap_append, filterMap_spaced rfl, filterMap_headed fun _ => rfl,
    List.filterMap_map, List.filterMap_map]
  change (modelDefinitions subjects).filterMap some ++ (subjects.flatMap Sequelize.associations).filterMap
    (fun _ => none) = modelDefinitions subjects
  rw [List.filterMap_some, List.filterMap_none, List.append_nil]

theorem declarations_drizzle :
    (drizzle subjects).declarations = tableDefinitions subjects ++ blockDefinitions subjects := by
  rw [Script.declarations, items_drizzle, List.filterMap_append, filterMap_headed fun _ => rfl, filterMap_spaced rfl,
    filterMap_spaced rfl, List.filterMap_map, List.filterMap_map]
  change (tableDefinitions subjects).filterMap some ++ (blockDefinitions subjects).filterMap some = _
  rw [List.filterMap_some, List.filterMap_some]

variable {subjects}

/-- Whatever comes after the definitions of the models uses them so, if it is of this shape. -/
theorem usesAfter_sequelize {association : Sequelize.Association}
    (h : association ∈ subjects.flatMap Sequelize.associations)
    (hmodels : association.models ⊆ (modelDefinitions subjects).map Declaration.name) :
    (sequelize subjects).UsesAfter (modelDefinitions subjects) (.statement association.text) association.models where
  present := by
    rw [items_sequelize]
    exact List.mem_append_right _ (mem_headed (List.mem_map_of_mem h))
  order := by
    refine Script.sublist_above (items_sequelize subjects) (fun hmem => ?_) (sublist_spaced _)
    rcases mem_or_eq_of_mem_spaced hmem with hdefinition | hblank
    · obtain ⟨definition, -, hstatement⟩ := List.mem_map.1 hdefinition
      exact Item.noConfusion hstatement
    · exact Sequelize.Association.text_ne (by decide) (Item.statement.inj hblank)
  defined := hmodels

theorem usesAfter_drizzle {relations : Drizzle.Relations} (h : relations ∈ subjects.filterMap Drizzle.Relations.of?)
    (htables : relations.tables ⊆ (tableDefinitions subjects).map Declaration.name) :
    (drizzle subjects).UsesAfter (tableDefinitions subjects) (.declaration relations.declaration)
      relations.tables where
  present := by
    rw [items_drizzle]
    exact List.mem_append_right _ (mem_headed (mem_spaced (List.mem_map_of_mem (List.mem_map_of_mem h))))
  order := by
    refine Script.sublist_above (items_drizzle subjects) (fun hmem => ?_) (sublist_spaced _)
    rcases mem_or_eq_of_mem_spaced hmem with hdefinition | hblank
    · obtain ⟨definition, hdefinition, hsame⟩ := List.mem_map.1 hdefinition
      obtain ⟨table, -, rfl⟩ := List.mem_map.1 hdefinition
      exact table.declaration_ne relations (Item.declaration.inj hsame)
    · exact Item.noConfusion hblank
  defined := htables

end Aggregate

section Schema

variable {schema : Schema} {policy : OwnerPolicy} {subjects : List Subject}
  (h : schema.subjects policy = .ok subjects)

include h

theorem entities_of_subject {subject : Subject} (hsubject : subject ∈ subjects) {accessor : Accessor}
    (haccessor : accessor ∈ subject.accessors) :
    subject.entity.name :: accessor.entities ⊆ schema.entities.map Entity.name := by
  obtain ⟨resolved, hresolve, hmap⟩ := bind_eq_ok.1 h
  obtain rfl := pure_eq_ok.1 hmap
  obtain ⟨result, hresult, rfl⟩ := List.mem_map.1 hsubject
  obtain ⟨hentity, relation, -, hrelation⟩ := Schema.mem_accessors hresolve hresult haccessor
  exact List.cons_subset.2 ⟨List.mem_map_of_mem hentity, Accessor.entities_of_resolve hrelation⟩

theorem models_of_association {association : Sequelize.Association}
    (hassociation : association ∈ subjects.flatMap Sequelize.associations) :
    association.models ⊆ schema.entities.map Entity.name := by
  obtain ⟨subject, hsubject, hmem⟩ := List.mem_flatMap.1 hassociation
  obtain ⟨accessor, haccessor, rfl⟩ := List.mem_map.1 hmem
  exact List.Subset.trans (Sequelize.Association.models_of _ accessor) (entities_of_subject h hsubject haccessor)

theorem tables_of_relations {relations : Drizzle.Relations}
    (hrelations : relations ∈ subjects.filterMap Drizzle.Relations.of?) :
    relations.tables ⊆ Aggregate.tables subjects := by
  obtain ⟨subject, hsubject, hsome⟩ := List.mem_filterMap.1 hrelations
  have hnames : Aggregate.tables subjects = (schema.entities.map Entity.name).map Drizzle.tableBinding := by
    rw [List.map_map]
    exact map_names_of_subjects h Drizzle.tableBinding
  have hown : subject.names.tableBinding ∈ Aggregate.tables subjects := List.mem_map_of_mem hsubject
  rw [Drizzle.Relations.of?] at hsome
  split at hsome
  · cases hsome
  · obtain rfl := Option.some.inj hsome
    refine List.cons_subset.2 ⟨hown, fun table htable => ?_⟩
    rw [List.map_map] at htable
    obtain ⟨accessor, haccessor, rfl⟩ := List.mem_map.1 htable
    have hentities := List.subset_of_cons_subset (entities_of_subject h hsubject haccessor)
    rw [hnames]
    exact List.map_subset _ hentities (Drizzle.RelationEntry.table_of accessor)

end Schema

/-- A file of models defines the model of every entity, in the order of the schema, before it associates any, and
the models that are associated are defined. A file of tables defines every table before it relates any, and the tables
that are related are defined. -/
theorem definitions_precede_uses {schema : Schema} {policy : OwnerPolicy} {layout : Layout}
    {artifacts : List Artifact} (h : schema.generate policy layout = .ok artifacts) :
    ∃ subjects, schema.subjects policy = .ok subjects ∧
      (∀ file ∈ [("models.sequelize.ts", Aggregate.sequelize subjects),
          ("models.drizzle.ts", Aggregate.drizzle subjects)],
        ⟨layout.generated.join ⟨file.1⟩, file.2.text, .overwrite⟩ ∈ artifacts) ∧
      (Aggregate.sequelize subjects).declarations = Aggregate.modelDefinitions subjects ∧
      (Aggregate.modelDefinitions subjects).map Declaration.name = schema.entities.map Entity.name ∧
      (∀ association ∈ subjects.flatMap Sequelize.associations, (Aggregate.sequelize subjects).UsesAfter
        (Aggregate.modelDefinitions subjects) (.statement association.text) association.models) ∧
      (Aggregate.drizzle subjects).declarations =
        Aggregate.tableDefinitions subjects ++ Aggregate.blockDefinitions subjects ∧
      ∀ relations ∈ subjects.filterMap Drizzle.Relations.of?, (Aggregate.drizzle subjects).UsesAfter
        (Aggregate.tableDefinitions subjects) (.declaration relations.declaration) relations.tables := by
  obtain ⟨subjects, api, hsubjects, hentities, rfl⟩ := artifacts_of_generate h
  have hnames : (Aggregate.modelDefinitions subjects).map Declaration.name = schema.entities.map Entity.name := by
    rw [Aggregate.names_modelDefinitions]
    exact map_names_of_subjects hsubjects id
  refine ⟨subjects, hsubjects, fun file hfile => List.mem_append_right _ ?_, Aggregate.declarations_sequelize subjects,
    hnames, fun association hassociation => ?_, Aggregate.declarations_drizzle subjects,
    fun relations hrelations => ?_⟩
  · have hmem : (file.1, file.2.text) ∈ Aggregate.files subjects api := by
      rcases List.mem_cons.1 hfile with rfl | hfile
      · simp [Aggregate.files]
      · obtain rfl := List.mem_singleton.1 hfile
        simp [Aggregate.files]
    exact List.mem_map.2 ⟨_, hmem, rfl⟩
  · refine Aggregate.usesAfter_sequelize hassociation ?_
    rw [hnames]
    exact models_of_association hsubjects hassociation
  · refine Aggregate.usesAfter_drizzle hrelations ?_
    rw [Aggregate.names_tableDefinitions]
    exact tables_of_relations hsubjects hrelations

/-- A person is related to persons by way of a model that comes later. -/
theorem definitions_precede_uses_for_people :
    ∃ artifacts subjects, people.generate .standard .standard = .ok artifacts ∧
      people.subjects .standard = .ok subjects ∧ ∃ association ∈ subjects.flatMap Sequelize.associations,
        association.models = ["Person", "Person", "Friendship"] ∧
          (Aggregate.sequelize subjects).UsesAfter (Aggregate.modelDefinitions subjects)
            (.statement association.text) association.models := by
  obtain ⟨artifacts, hgenerate⟩ := Schema.generate_of_resolve people_resolve .standard .standard
  have hpeople := subjects_of_resolve people_resolve .standard
  obtain ⟨subjects, hsubjects, -, -, -, huses, -, -⟩ := definitions_precede_uses hgenerate
  obtain rfl := Except.ok.inj (hpeople.symm.trans hsubjects)
  have hmem : Sequelize.Association.of people.entities[0] people.resolved[0].accessors[0] ∈
      (people.resolved.map (Subject.of .standard)).flatMap Sequelize.associations := by decide
  exact ⟨artifacts, _, hgenerate, hsubjects, _, hmem, rfl, huses _ hmem⟩

end EntityForge
