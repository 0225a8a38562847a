import EntityForge.Proofs.Loading
import Mathlib.Data.List.Find

/-!
Everything that is wrong with a document, in the order in which it is looked for.

The problems are read off the document alone, none of them hidden by another. Loading stops at the first
one. Main statements: `ModelDecl.reports_load` and `Schema.reports_attach` for the two passes, and
`load_refused_for_first_problem`.
-/

namespace EntityForge

/-- The names that a document may give to a type. -/
def DataType.vocabulary : List String :=
  ["string", "text", "integer", "float", "double", "number", "boolean", "date", "datetime", "time",
   "uuid", "json", "jsonb"]

def FieldDecl.problems (decl : FieldDecl) : List LoadError :=
  if decl.dataType ∈ DataType.vocabulary then [] else [.unknownDataType decl.dataType]

namespace ModelDecl

def primaryKeys (model : ModelDecl) : List String :=
  (model.fields.filter fun field => field.2.primaryKey).map Prod.fst

/-- The fields that an index names and the model does not declare. -/
def strayIndexFields (model : ModelDecl) : List String :=
  (model.indexes.flatMap IndexDecl.fields).filter fun name => name ∉ model.fields.keys

def problems (name : String) (model : ModelDecl) : List LoadError :=
  (model.fields.flatMap fun field => field.2.problems)
    ++ (if 1 < model.primaryKeys.length then [.severalPrimaryKeys name] else [])
    ++ model.strayIndexFields.map (.unknownIndexField name)

end ModelDecl

/-- The names that are taken when their turn comes, by a field or by a name before them. -/
def takenNames (fields names : List String) : List String :=
  names.zipIdx.filterMap fun (name, place) =>
    if name ∈ fields ∨ name ∈ names.take place then some name else none

/-- A block of a model that is not declared matters only for its first target. -/
def RelationBlock.problems (models : Entries ModelDecl) (owner : String) (block : RelationBlock) :
    List LoadError :=
  match models.get? owner with
  | none => (block.targets.take 1).map (.unknownOwner owner)
  | some model =>
    (takenNames model.fields.keys (block.relations.map Relation.name)).map (.repeatedName owner)

/-- Without models nothing else is looked at. -/
def Document.problems (doc : Document) : List LoadError :=
  match doc.models with
  | none | some [] => [.noModels]
  | some models =>
    (models.flatMap fun model => model.2.problems model.1)
      ++ doc.relationships.flatMap fun block => block.2.problems models block.1

theorem DataType.ofName?_eq_none_iff {name : String} :
    ofName? name = none ↔ name ∉ vocabulary := by
  unfold ofName?
  split
  · next halias => rcases halias with rfl | rfl <;> decide
  · next halias =>
    have hflip (other : String) : (other = name) = (name = other) := propext eq_comm
    simp only [not_or] at halias
    simp [vocabulary, all, DataType.name, halias.1, halias.2, hflip]

theorem FieldDecl.reports_load (name : String) (decl : FieldDecl) :
    Reports (decl.load name) decl.problems := by
  unfold load problems
  split
  · next hunknown =>
    rw [if_neg (DataType.ofName?_eq_none_iff.1 hunknown)]
    exact Reports.error _ _
  · next dataType hknown =>
    have hname : decl.dataType ∈ DataType.vocabulary := by
      by_contra hnot
      rw [DataType.ofName?_eq_none_iff.2 hnot] at hknown
      cases hknown
    rw [if_pos hname]
    exact Reports.ok _

theorem FieldDecl.load_primaryKey {name : String} {decl : FieldDecl} {field : Field}
    (h : decl.load name = .ok field) : field.primaryKey = decl.primaryKey := by
  unfold load at h
  split at h
  · cases h
  · cases h
    rfl

namespace ModelDecl

variable {name : String} {model : ModelDecl} {fields : List Field}

theorem countP_of_fields
    (h : List.Forall₂ (fun entry field => entry.2.load entry.1 = .ok field) model.fields fields) :
    fields.countP Field.primaryKey = model.primaryKeys.length := by
  rw [primaryKeys, List.length_map, ← List.countP_eq_length_filter]
  generalize model.fields = entries at h
  induction h with
  | nil => rfl
  | cons hfirst _ ih =>
    rw [List.countP_cons, List.countP_cons, ih, FieldDecl.load_primaryKey hfirst]

/-- The first problem of a model is told, and nothing of it but that. -/
theorem reports_load (name : String) (model : ModelDecl) :
    Reports (model.load name) (model.problems name) := by
  have hfields : Reports (model.fields.mapM fun field => field.2.load field.1)
      (model.fields.flatMap fun field => field.2.problems) :=
    Reports.mapM fun field _ => FieldDecl.reports_load field.1 field.2
  rw [problems, List.append_assoc]
  refine hfields.bind fun fields hloaded => ?_
  have hnames := names_of_fields (mapM_eq_ok.1 hloaded)
  have hkeys := countP_of_fields (mapM_eq_ok.1 hloaded)
  have hstray : strayIndexField? model.indexes fields = model.strayIndexFields.head? := by
    rw [strayIndexField?, strayIndexFields, List.head?_filter]
    refine List.find?_congr fun name _ => ?_
    have hany : (fields.any fun f => f.name == name) = decide (name ∈ model.fields.keys) := by
      rw [← hnames, Bool.eq_iff_iff]
      simp
    rw [hany, decide_not]
  rw [hkeys, hstray]
  split
  · exact Reports.error _ _
  · cases model.strayIndexFields with
    | nil => exact Reports.ok _
    | cons field more => exact Reports.error _ _

end ModelDecl

/-- The names before stand for the part of a block that has been gone through. -/
theorem repeatedName?_eq_findSome? {fields before known : List String}
    (hknown : ∀ name, name ∈ known ↔ name ∈ fields ∨ name ∈ before) (relations : List Relation) :
    repeatedName? known relations =
      ((relations.map Relation.name).zipIdx before.length).findSome? fun (name, place) =>
        if name ∈ fields ∨ name ∈ (before ++ relations.map Relation.name).take place
        then some name else none := by
  induction relations generalizing before known with
  | nil => rfl
  | cons relation rest ih =>
    have htake : (before ++ relation.name :: rest.map Relation.name).take before.length = before :=
      List.take_left
    simp only [repeatedName?, List.map_cons, List.zipIdx_cons, List.findSome?_cons, htake]
    by_cases htaken : relation.name ∈ known
    · simp [htaken, (hknown _).1 htaken]
    · have hnot : ¬(relation.name ∈ fields ∨ relation.name ∈ before) :=
        fun h => htaken ((hknown _).2 h)
      have hmore (name : String) : name ∈ relation.name :: known ↔
          name ∈ fields ∨ name ∈ before ++ [relation.name] := by
        simp only [List.mem_cons, hknown, List.mem_append, List.not_mem_nil, or_false]
        tauto
      have hnext := ih hmore
      simp only [List.length_append, List.length_singleton, List.append_assoc,
        List.singleton_append] at hnext
      simp [htaken, hnot, hnext]

/-- What is found by stopping at the first taken name is the first of all of them. -/
theorem repeatedName?_eq_head? (fields : List String) (relations : List Relation) :
    repeatedName? fields relations = (takenNames fields (relations.map Relation.name)).head? := by
  have hknown (name : String) : name ∈ fields ↔ name ∈ fields ∨ name ∈ ([] : List String) := by
    simp
  rw [takenNames, List.head?_filterMap]
  exact repeatedName?_eq_findSome? hknown relations

example : takenNames ["id"] ["posts", "id", "posts"] = ["id", "posts"] := by decide

/-- The entities have the names of the models, and their fields too. -/
def Outlines (models : Entries ModelDecl) (entities : List Entity) : Prop :=
  entities.map (fun entity => (entity.name, entity.fields.map Field.name)) =
    models.map fun model => (model.1, model.2.fields.keys)

namespace Outlines

variable {models : Entries ModelDecl} {entities : List Entity}

theorem of_loaded
    (h : List.Forall₂ (fun model entity => model.2.load model.1 = .ok entity) models entities) :
    Outlines models entities := by
  refine map_eq_map_of_forall₂ h fun model entity hentity => ?_
  obtain ⟨hname, hfields⟩ := ModelDecl.load_names hentity
  rw [hname, hfields]

theorem of_bare {next : List Entity} (h : Outlines models entities)
    (hbare : next.map Entity.bare = entities.map Entity.bare) : Outlines models next := by
  have hsame := congrArg (List.map fun entity => (entity.name, entity.fields.map Field.name)) hbare
  simp only [List.map_map, Function.comp_def, Entity.bare_name, Entity.bare_fields] at hsame
  exact hsame.trans h

/-- An entity is found where its model is, and has the fields of it. -/
theorem find? (h : Outlines models entities) (owner : String) :
    (entities.find? fun entity => entity.name == owner).map (fun e => e.fields.map Field.name) =
      (models.get? owner).map fun model => model.fields.keys := by
  induction models generalizing entities with
  | nil =>
    obtain rfl : entities = [] := List.map_eq_nil_iff.1 h
    rfl
  | cons model models ih =>
    cases entities with
    | nil => cases h
    | cons entity entities =>
      obtain ⟨hhead, htail⟩ := List.cons.inj h
      obtain ⟨hname, hfields⟩ := Prod.mk.inj hhead
      by_cases howner : model.1 = owner
      · simp [Entries.get?, hname, howner, hfields]
      · simp [Entries.get?, hname, howner, ih htail]

end Outlines

namespace Schema

variable {models : Entries ModelDecl} {entities : List Entity}

theorem reports_attach (h : Outlines models entities) (owner : String) (block : RelationBlock) :
    Reports (attach entities owner block) (block.problems models owner) := by
  have hfind := h.find? owner
  unfold attach RelationBlock.problems
  cases hentity : entities.find? fun entity => entity.name == owner with
  | none =>
    rw [hentity, Option.map_none] at hfind
    rw [Option.map_eq_none_iff.1 hfind.symm]
    cases block.targets with
    | nil => exact Reports.ok _
    | cons target targets => exact Reports.error _ _
  | some entity =>
    rw [hentity, Option.map_some] at hfind
    obtain ⟨model, hmodel, hfields⟩ := Option.map_eq_some_iff.1 hfind.symm
    simp only [hmodel, ← hfields, repeatedName?_eq_head?]
    cases takenNames model.fields.keys (block.relations.map Relation.name) with
    | nil => exact Reports.ok _
    | cons name names => exact Reports.error _ _

/-- Attaching the relations of one block changes nothing that the next one is judged by. -/
theorem reports_attachAll (h : Outlines models entities) (blocks : List (String × RelationBlock)) :
    Reports (attachAll entities blocks) (blocks.flatMap fun block => block.2.problems models block.1) := by
  induction blocks generalizing entities with
  | nil => exact Reports.ok entities
  | cons block blocks ih =>
    have hfirst := reports_attach h block.1 block.2
    rw [List.flatMap_cons]
    exact hfirst.bind fun next hnext => ih (h.of_bare (bare_attach hnext))

theorem reports_load (doc : Document) : Reports (load doc) doc.problems := by
  unfold load loadModels Document.problems
  rcases doc.models with _ | _ | ⟨first, rest⟩
  · exact Reports.error _ _
  · exact Reports.error _ _
  · have hmodels : Reports ((first :: rest).mapM fun model => model.2.load model.1)
        ((first :: rest).flatMap fun model => model.2.problems model.1) :=
      Reports.mapM fun model _ => ModelDecl.reports_load model.1 model.2
    refine hmodels.bind fun entities hentities => ?_
    have houtlines := Outlines.of_loaded (mapM_eq_ok.1 hentities)
    have hblocks := reports_attachAll houtlines doc.relationships
    exact hblocks.map fun attached => Schema.mk attached doc.api

end Schema

/-- A document is refused for the first thing that is wrong with it, and for nothing else; one with which
nothing is wrong is a schema. -/
theorem load_refused_for_first_problem (doc : Document) :
    (∀ e, Schema.load doc = .error e ↔ doc.problems.head? = some e) ∧
      ((∃ schema, Schema.load doc = .ok schema) ↔ doc.problems = []) :=
  ⟨fun _ => (Schema.reports_load doc).eq_error_iff, (Schema.reports_load doc).exists_ok_iff⟩

end EntityForge
