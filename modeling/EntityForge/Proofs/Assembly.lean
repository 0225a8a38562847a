import EntityForge.Proofs.DefinitionOrder

/-!
All artifacts of a generation, file by file, and the texts that four of them are put together from.

The files of each entity come twice, side by side, and the files about all entities come last. Four of these are made
of the texts of surfaces: the texts that are not empty, in the order of the entities, between a fixed beginning and
fixed separators. So no text is lost and none comes twice. Main statements: `text_contracts`, `text_sequelize`,
`text_drizzle`, `text_graphql` and `artifacts_eq_of_generate`.
-/

namespace EntityForge

open TypeScript

section Join

theorem join_map_intersperse {α : Type} (f : α → String) (separator : α) (values : List α) :
    String.join ((values.intersperse separator).map f) = (f separator).intercalate (values.map f) := by
  induction values with
  | nil => rfl
  | cons first rest ih =>
    cases rest with
    | nil => rw [List.intersperse_singleton, List.map_singleton, String.intercalate_singleton, String.join_cons,
        String.join_nil, String.append_empty]
    | cons second rest =>
      rw [List.map_cons] at ih
      rw [List.intersperse_cons_cons, List.map_cons, List.map_cons, String.join_cons, String.join_cons, ih,
        List.map_cons, List.map_cons, String.intercalate_cons_cons, String.append_assoc]

theorem join_map_flatten {α : Type} (f : α → String) (lists : List (List α)) :
    String.join (lists.flatten.map f) = String.join (lists.map fun values => String.join (values.map f)) := by
  induction lists with
  | nil => rfl
  | cons first rest ih =>
    rw [List.flatten_cons, List.map_append, String.join_append, ih, List.map_cons, String.join_cons]

/-- An empty text makes no difference where nothing is put in between. -/
theorem join_filter_ne (texts : List String) : String.join (texts.filter (· ≠ "")) = String.join texts := by
  induction texts with
  | nil => rfl
  | cons first rest ih =>
    by_cases hfirst : first = ""
    · rw [List.filter_cons_of_neg (by simpa using hfirst), String.join_cons, ih, hfirst, String.empty_append]
    · rw [List.filter_cons_of_pos (by simpa using hfirst), String.join_cons, String.join_cons, ih]

theorem append_ne_empty_of_right {first second : String} (h : second ≠ "") : first ++ second ≠ "" := by
  intro hempty
  exact h (String.append_eq_empty_iff.1 hempty).2

theorem append_ne_empty_of_left {first second : String} (h : first ≠ "") : first ++ second ≠ "" := by
  intro hempty
  exact h (String.append_eq_empty_iff.1 hempty).1

end Join

theorem TypeScript.Declaration.text_ne_empty (d : Declaration) : d.text ≠ "" := by
  unfold text
  apply append_ne_empty_of_left
  apply append_ne_empty_of_left
  apply append_ne_empty_of_right
  decide

namespace Surface

/-- The texts of a surface that are not empty, in the order of the entities. -/
def fragments (surface : Surface) (subjects : List Subject) : List String :=
  (subjects.map surface.text).filter (· ≠ "")

theorem fragments_of_ne_empty {surface : Surface} (h : ∀ subject, surface.text subject ≠ "")
    (subjects : List Subject) :
    surface.fragments subjects = subjects.map surface.text := by
  apply List.filter_eq_self.2
  intro text htext
  obtain ⟨subject, -, rfl⟩ := List.mem_map.1 htext
  exact decide_eq_true (h subject)

variable (subject : Subject)

theorem contract_ne_empty : Surface.contract.text subject ≠ "" := Declaration.text_ne_empty _

theorem sequelizeModel_ne_empty : Surface.sequelizeModel.text subject ≠ "" := Declaration.text_ne_empty _

theorem drizzleTable_ne_empty : Surface.drizzleTable.text subject ≠ "" := Declaration.text_ne_empty _

theorem graphqlSdl_ne_empty : Surface.graphqlSdl.text subject ≠ "" := by
  apply append_ne_empty_of_right
  decide

theorem graphql_ne_empty : Surface.graphql.text subject ≠ "" := by
  have hmem : Item.declaration (Graphql.ObjectType.of subject).declaration ∈ Graphql.items subject :=
    mem_spaced (List.mem_map_of_mem List.mem_cons_self)
  obtain ⟨above, below, hitems⟩ := List.append_of_mem hmem
  rw [text, hitems, List.map_append, List.map_cons, String.join_append, String.join_cons]
  apply append_ne_empty_of_right
  apply append_ne_empty_of_left
  exact Declaration.text_ne_empty _

end Surface

namespace Aggregate

/-- A text under a heading, or nothing when there is no text. -/
def under (heading text : String) : String := if text = "" then "" else s!"\n// {heading}\n\n" ++ text

/-- The file of contracts, put together from texts. -/
def contractsText (subjects : List Subject) : String :=
  "export interface _BaseEntity \x7b\x7d\n\n" ++ "\n".intercalate (Surface.contract.fragments subjects)

def sequelizeText (subjects : List Subject) : String :=
  "import \x7b DataTypes \x7d from \"sequelize\";\n" ++
    "import \x7b sequelize \x7d from \"../lib/sequelize\";\n\n" ++
    "\n".intercalate (Surface.sequelizeModel.fragments subjects) ++
    under "Associations" (String.join (Surface.sequelizeAssociations.fragments subjects))

def drizzleText (subjects : List Subject) : String :=
  "import \x7b boolean, check, date, index, integer, json, jsonb, pgTable, real, serial, text, time, timestamp, " ++
    "uniqueIndex, uuid, varchar \x7d from \"drizzle-orm/pg-core\";\n" ++
    "import \x7b relations, sql \x7d from \"drizzle-orm\";\n\n" ++
    "\n".intercalate (Surface.drizzleTable.fragments subjects) ++
    under "Relations" ("\n".intercalate (Surface.drizzleRelations.fragments subjects))

/-- The imports of repositories depend on the entities, and nothing else of the beginning does. -/
def graphqlText (subjects : List Subject) : String :=
  "import \x7b GraphQLBoolean, GraphQLFloat, GraphQLInt, GraphQLList, GraphQLNonNull, GraphQLObjectType, " ++
    "GraphQLString \x7d from \"graphql\";\n" ++ "import \x7b Container \x7d from \"typedi\";\n" ++
    String.join ((repositoryImports subjects).map Import.text) ++
    "\nexport const typeDefs = `\n" ++ "\n".intercalate (Surface.graphqlSdl.fragments subjects) ++ "`;\n\n" ++
    "\n".intercalate (Surface.graphql.fragments subjects)

variable (subjects : List Subject)

theorem join_spaced (items : List Item) :
    String.join ((spaced items).map Item.text) = "\n".intercalate (items.map Item.text) :=
  join_map_intersperse Item.text blankLine items

theorem join_declarations {α : Type} (of : α → Declaration) (values : List α) :
    String.join ((declarations of values).map Item.text) =
      "\n".intercalate (values.map fun value => (of value).text) := by
  rw [declarations, join_spaced, List.map_map]
  rfl

theorem join_headed {heading : String} {items : List Item} (h : ∀ item ∈ items, item.text ≠ "") :
    String.join ((headed heading items).map Item.text) = under heading (String.join (items.map Item.text)) := by
  cases items with
  | nil => rfl
  | cons first rest =>
    have hfirst : String.join ((first :: rest).map Item.text) ≠ "" := by
      rw [List.map_cons, String.join_cons]
      exact append_ne_empty_of_left (h first List.mem_cons_self)
    have hitems : headed heading (first :: rest) = .statement s!"\n// {heading}\n\n" :: first :: rest := rfl
    rw [under, if_neg hfirst, hitems, List.map_cons, String.join_cons, Item.text]

theorem text_contracts : (contracts subjects).text = contractsText subjects := by
  have hbase : (Declaration.mk "" .interface Contract.base " \x7b\x7d\n").text ++ "\n" =
      "export interface _BaseEntity \x7b\x7d\n\n" := by decide
  have hitems : String.join ((declarations Contract.declaration (subjects.map Contract.of)).map Item.text) =
      "\n".intercalate (Surface.contract.fragments subjects) := by
    rw [Surface.fragments_of_ne_empty Surface.contract_ne_empty, join_declarations, List.map_map]
    rfl
  have htext : (contracts subjects).text = (Declaration.mk "" .interface Contract.base " \x7b\x7d\n").text ++ "\n" ++
      String.join ((declarations Contract.declaration (subjects.map Contract.of)).map Item.text) := by
    simp only [Script.text, contracts, List.map_nil, String.join_nil, List.isEmpty_nil, List.map_cons, if_true,
      String.join_cons, String.empty_append, String.append_assoc]
    rfl
  unfold contractsText
  rw [htext, hitems, hbase]

theorem text_sequelize : (sequelize subjects).text = sequelizeText subjects := by
  have himports : String.join ((sequelize []).imports.map Import.text) ++ "\n" =
      "import \x7b DataTypes \x7d from \"sequelize\";\n" ++
        "import \x7b sequelize \x7d from \"../lib/sequelize\";\n\n" := by decide
  have hmodels : String.join ((declarations Sequelize.Model.declaration
      (subjects.map Sequelize.Model.of)).map Item.text) =
        "\n".intercalate (Surface.sequelizeModel.fragments subjects) := by
    rw [Surface.fragments_of_ne_empty Surface.sequelizeModel_ne_empty, join_declarations, List.map_map]
    rfl
  have hassociations : String.join ((headed "Associations" ((subjects.flatMap Sequelize.associations).map fun a =>
      .statement a.text)).map Item.text) =
        under "Associations" (String.join (Surface.sequelizeAssociations.fragments subjects)) := by
    rw [join_headed, List.map_map, Surface.fragments, join_filter_ne, List.flatMap_def]
    · exact congrArg _ ((join_map_flatten _ _).trans (by rw [List.map_map]; rfl))
    · intro item hitem
      obtain ⟨association, -, rfl⟩ := List.mem_map.1 hitem
      exact Sequelize.Association.text_ne (by decide)
  have htext : (sequelize subjects).text = String.join ((sequelize []).imports.map Import.text) ++ "\n" ++
      String.join ((declarations Sequelize.Model.declaration (subjects.map Sequelize.Model.of)).map Item.text) ++
      String.join ((headed "Associations" ((subjects.flatMap Sequelize.associations).map fun a =>
        .statement a.text)).map Item.text) := by
    unfold Script.text sequelize
    rw [List.map_append, String.join_append, ← String.append_assoc]
    rfl
  unfold sequelizeText
  rw [htext, himports, hmodels, hassociations]

/-- The blocks of relations are the texts that are not empty. -/
theorem fragments_drizzleRelations : Surface.drizzleRelations.fragments subjects =
    (subjects.filterMap Drizzle.Relations.of?).map fun relations => relations.declaration.text := by
  unfold Surface.fragments
  induction subjects with
  | nil => rfl
  | cons subject rest ih =>
    rw [List.map_cons]
    cases hblock : Drizzle.Relations.of? subject with
    | none =>
      have hempty : Surface.drizzleRelations.text subject = "" := by rw [Surface.text, hblock]; rfl
      rw [List.filterMap_cons_none hblock, List.filter_cons_of_neg (by simp [hempty]), ih]
    | some relations =>
      have htext : Surface.drizzleRelations.text subject = relations.declaration.text := by
        rw [Surface.text, hblock]
        rfl
      rw [List.filterMap_cons_some hblock, List.map_cons, htext,
        List.filter_cons_of_pos (by simpa using relations.declaration.text_ne_empty), ih]

theorem text_drizzle : (drizzle subjects).text = drizzleText subjects := by
  have himports : String.join ((drizzle []).imports.map Import.text) ++ "\n" =
      "import \x7b boolean, check, date, index, integer, json, jsonb, pgTable, real, serial, text, time, timestamp, " ++
        "uniqueIndex, uuid, varchar \x7d from \"drizzle-orm/pg-core\";\n" ++
        "import \x7b relations, sql \x7d from \"drizzle-orm\";\n\n" := by decide +kernel
  have htables : String.join ((declarations Drizzle.Table.declaration (subjects.map Drizzle.Table.of)).map Item.text) =
      "\n".intercalate (Surface.drizzleTable.fragments subjects) := by
    rw [Surface.fragments_of_ne_empty Surface.drizzleTable_ne_empty, join_declarations, List.map_map]
    rfl
  have hblocks : String.join ((headed "Relations" (declarations Drizzle.Relations.declaration
      (subjects.filterMap Drizzle.Relations.of?))).map Item.text) =
        under "Relations" ("\n".intercalate (Surface.drizzleRelations.fragments subjects)) := by
    rw [join_headed, join_declarations, fragments_drizzleRelations]
    intro item hitem
    rcases mem_or_eq_of_mem_spaced hitem with hdeclaration | rfl
    · obtain ⟨relations, -, rfl⟩ := List.mem_map.1 hdeclaration
      exact relations.declaration.text_ne_empty
    · decide
  have htext : (drizzle subjects).text = String.join ((drizzle []).imports.map Import.text) ++ "\n" ++
      String.join ((declarations Drizzle.Table.declaration (subjects.map Drizzle.Table.of)).map Item.text) ++
      String.join ((headed "Relations" (declarations Drizzle.Relations.declaration
        (subjects.filterMap Drizzle.Relations.of?))).map Item.text) := by
    unfold Script.text drizzle
    rw [List.map_append, String.join_append, ← String.append_assoc]
    rfl
  unfold drizzleText
  rw [htext, himports, htables, hblocks]

theorem text_typeDefinitions : "\n" ++ (typeDefinitions subjects).text ++ "\n" =
    "\nexport const typeDefs = `\n" ++ "\n".intercalate (Surface.graphqlSdl.fragments subjects) ++ "`;\n\n" := by
  have hopening : "\n" ++ ("" ++ "export " ++ Keyword.constant.text ++ " " ++ "typeDefs" ++ (" = " ++ "`\n")) =
      "\nexport const typeDefs = `\n" := by decide
  have hclosing : "`;\n" ++ "\n" = "`;\n\n" := by decide
  have htext : "\n" ++ (typeDefinitions subjects).text ++ "\n" =
      "\n" ++ ("" ++ "export " ++ Keyword.constant.text ++ " " ++ "typeDefs" ++ (" = " ++ "`\n")) ++
        "\n".intercalate (subjects.map Surface.graphqlSdl.text) ++ ("`;\n" ++ "\n") := by
    simp only [typeDefinitions, constant, Declaration.text, String.append_assoc]
    rfl
  rw [htext, hopening, hclosing, Surface.fragments_of_ne_empty Surface.graphqlSdl_ne_empty]

theorem text_graphql : (graphql subjects).text = graphqlText subjects := by
  have hfixed : String.join (((graphql []).imports.take 2).map Import.text) =
      "import \x7b GraphQLBoolean, GraphQLFloat, GraphQLInt, GraphQLList, GraphQLNonNull, GraphQLObjectType, " ++
        "GraphQLString \x7d from \"graphql\";\n" ++ "import \x7b Container \x7d from \"typedi\";\n" := by
    decide +kernel
  have himports : (graphql subjects).imports = (graphql []).imports.take 2 ++ repositoryImports subjects := rfl
  have hblocks : String.join ((((subjects.map Graphql.items).intersperse [blankLine]).flatten).map Item.text) =
      "\n".intercalate (Surface.graphql.fragments subjects) := by
    rw [Surface.fragments_of_ne_empty Surface.graphql_ne_empty, join_map_flatten, join_map_intersperse, List.map_map]
    rfl
  have hitems : String.join ((graphql subjects).items.map Item.text) = (typeDefinitions subjects).text ++ ("\n" ++
      String.join ((((subjects.map Graphql.items).intersperse [blankLine]).flatten).map Item.text)) := by
    unfold graphql
    rw [List.map_cons, List.map_cons, String.join_cons, String.join_cons]
    rfl
  have htext : (graphql subjects).text = String.join ((graphql subjects).imports.map Import.text) ++
      ("\n" ++ (typeDefinitions subjects).text ++ "\n") ++ "\n".intercalate (Surface.graphql.fragments subjects) := by
    have hempty : (graphql subjects).imports.isEmpty = false := rfl
    rw [Script.text, hitems, hblocks, hempty, if_neg Bool.false_ne_true]
    simp only [String.append_assoc]
  unfold graphqlText
  rw [htext, himports, List.map_append, String.join_append, hfixed, text_typeDefinitions]
  simp only [String.append_assoc]

end Aggregate

/-- The surfaces with a file of their own for every entity, and its place within the directory of all such files. -/
def Surface.scaffolds (directory : String) : List (Surface × Path) := [
  (.controller, ⟨s!"{directory}/{directory}.controller.ts"⟩),
  (.service, ⟨s!"{directory}/{directory}.service.ts"⟩),
  (.guard, ⟨s!"{directory}/{directory}.guard.ts"⟩),
  (.repository, ⟨s!"{directory}/{directory}.repository.ts"⟩),
  (.createDto, ⟨s!"{directory}/dto/{directory}.create.dto.ts"⟩),
  (.updateDto, ⟨s!"{directory}/dto/{directory}.update.dto.ts"⟩),
  (.searchDto, ⟨s!"{directory}/dto/{directory}.search.dto.ts"⟩)]

theorem Artifact.scaffold_eq (layout : Layout) (subject : Subject) : scaffold layout subject =
    (Surface.scaffolds subject.names.kebabPlural).flatMap fun (surface, file) =>
      copies layout file (surface.text subject) := rfl

theorem Aggregate.files_eq (subjects : List Subject) (api : Json) : files subjects api = [
    ("model-interfaces.ts", contractsText subjects),
    ("models.sequelize.ts", sequelizeText subjects),
    ("models.drizzle.ts", drizzleText subjects),
    ("schema.graphql.ts", graphqlText subjects),
    ("openapi.json", api.prettyText ++ "\n"),
    ("model-types.enum.ts", (modelTypes subjects).text),
    ("repository.service.ts", (repositoryService subjects).text),
    ("common.regex.ts", patterns.text)] := by
  unfold files
  rw [text_contracts, text_sequelize, text_drizzle, text_graphql]

/-- All that is generated, in order. Each of the seven files of an entity comes twice in a row, to be edited and for
reference; the eight files about all entities follow, of which four hold the texts of their surfaces, and the
document is that of the schema. -/
theorem artifacts_eq_of_generate {schema : Schema} {policy : OwnerPolicy} {layout : Layout}
    {artifacts : List Artifact} (h : schema.generate policy layout = .ok artifacts) :
    ∃ subjects api, schema.subjects policy = .ok subjects ∧ subjects.map Subject.entity = schema.entities ∧
      PublishedApi.ofSubjects schema.api subjects = .ok api ∧
      artifacts = (subjects.flatMap fun subject =>
          (Surface.scaffolds subject.names.kebabPlural).flatMap fun (surface, file) =>
            [⟨layout.resources.join file, surface.text subject, .skipIfExists⟩,
             ⟨layout.reference.join file, surface.text subject, .overwrite⟩]) ++
        [("model-interfaces.ts", Aggregate.contractsText subjects),
         ("models.sequelize.ts", Aggregate.sequelizeText subjects),
         ("models.drizzle.ts", Aggregate.drizzleText subjects),
         ("schema.graphql.ts", Aggregate.graphqlText subjects),
         ("openapi.json", api.prettyText ++ "\n"),
         ("model-types.enum.ts", (Aggregate.modelTypes subjects).text),
         ("repository.service.ts", (Aggregate.repositoryService subjects).text),
         ("common.regex.ts", Aggregate.patterns.text)].map fun (name, contents) =>
            ⟨layout.generated.join ⟨name⟩, contents, .overwrite⟩ := by
  obtain ⟨subjects, hsubjects, hrest⟩ := bind_eq_ok.1 h
  obtain ⟨api, hapi, hartifacts⟩ := bind_eq_ok.1 hrest
  have hsubjects := mapError_eq_ok.1 hsubjects
  refine ⟨subjects, api, hsubjects, Schema.entities_of_subjects hsubjects, mapError_eq_ok.1 hapi, ?_⟩
  rw [← pure_eq_ok.1 hartifacts, funext (Artifact.scaffold_eq layout), Aggregate.artifacts, Aggregate.files_eq]
  rfl

/-- Of two entities there are two times seven pairs, and eight files more. -/
theorem artifacts_eq_for_people : ∃ artifacts, people.generate .standard .standard = .ok artifacts ∧
    artifacts.length = 36 ∧ ∃ subjects, people.subjects .standard = .ok subjects ∧
      ⟨⟨"generated/models.drizzle.ts"⟩, Aggregate.drizzleText subjects, .overwrite⟩ ∈ artifacts := by
  obtain ⟨artifacts, hgenerate⟩ := Schema.generate_of_resolve people_resolve .standard .standard
  have hpeople := subjects_of_resolve people_resolve .standard
  obtain ⟨subjects, api, hsubjects, -, -, hartifacts⟩ := artifacts_eq_of_generate hgenerate
  obtain rfl := Except.ok.inj (hpeople.symm.trans hsubjects)
  refine ⟨artifacts, hgenerate, ?_, _, hsubjects, ?_⟩
  · rw [hartifacts]
    rfl
  · rw [hartifacts]
    apply List.mem_append_right
    exact List.mem_map.2 ⟨("models.drizzle.ts", _), by simp, rfl⟩

end EntityForge
