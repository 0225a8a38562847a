import EntityForge.Artifact
import EntityForge.Comparator.Pattern
import EntityForge.Surface.Text

/-!
The files about all entities together, in the order in which they are made.

A file of declarations holds those of every entity, one entity after the other in the order of the
schema, and nothing of an entity that has none.
-/

namespace EntityForge.Aggregate

open TypeScript

/-- The declarations of several entities, a blank line between each two. -/
def declarations {α : Type} (of : α → Declaration) (values : List α) : List Item :=
  spaced (values.map fun v => .declaration (of v))

/-- A part under a heading, or nothing at all. -/
def headed (heading : String) (items : List Item) : List Item :=
  if items.isEmpty then [] else .statement s!"\n// {heading}\n\n" :: items

def contracts (subjects : List Subject) : Script where
  imports := []
  items :=
    .declaration ⟨"", .interface, Contract.base, " \x7b\x7d\n"⟩ :: blankLine
      :: declarations Contract.declaration (subjects.map Contract.of)

def sequelize (subjects : List Subject) : Script where
  imports := [.named ["DataTypes"] "sequelize", .named ["sequelize"] "../lib/sequelize"]
  items :=
    declarations Sequelize.Model.declaration (subjects.map Sequelize.Model.of)
      ++ headed "Associations"
        ((subjects.flatMap Sequelize.associations).map fun a => .statement a.text)

def drizzle (subjects : List Subject) : Script where
  imports := [
    .named ["boolean", "check", "date", "index", "integer", "json", "jsonb", "pgTable", "real",
      "serial", "text", "time", "timestamp", "uniqueIndex", "uuid", "varchar"]
      "drizzle-orm/pg-core",
    .named ["relations", "sql"] "drizzle-orm"]
  items :=
    declarations Drizzle.Table.declaration (subjects.map Drizzle.Table.of)
      ++ headed "Relations"
        (declarations Drizzle.Relations.declaration (subjects.filterMap Drizzle.Relations.of?))

/-- What a file needs in order to reach the repository of every entity. -/
def repositoryImports (subjects : List Subject) : List Import :=
  .named (subjects.map fun s => s.entity.name ++ "Entity") "./model-interfaces"
    :: subjects.map fun s =>
      let directory := s.names.kebabPlural
      .named [s.names.token] s!"../resources/{directory}/{directory}.repository"

/-- The types of all entities in the schema language, as one literal. -/
def typeDefinitions (subjects : List Subject) : Declaration :=
  let definitions := subjects.map fun s => (Graphql.TypeDefinition.of s).text
  constant "typeDefs" ("`\n" ++ "\n".intercalate definitions ++ "`;\n")

def graphql (subjects : List Subject) : Script where
  imports :=
    .named ["GraphQLBoolean", "GraphQLFloat", "GraphQLInt", "GraphQLList", "GraphQLNonNull",
      "GraphQLObjectType", "GraphQLString"] "graphql"
      :: .named ["Container"] "typedi"
      :: repositoryImports subjects
  items :=
    .declaration (typeDefinitions subjects) :: blankLine
      :: ((subjects.map Graphql.items).intersperse [blankLine]).flatten

def modelTypes (subjects : List Subject) : Script where
  imports := []
  items := [.declaration {
    lead := ""
    keyword := .enumeration
    name := "ModelTypes"
    body :=
      let member (subject : Subject) : String :=
        let name := Identifier.screamingSnake subject.entity.name
        s!"  {name} = \"{name}\","
      lines ([" \x7b"] ++ subjects.map member ++ ["\x7d"]) }]

/-- The property under which the repository of an entity is injected. -/
def repositoryProperty (subject : Subject) : String :=
  let n := subject.names
  let property := Resource.Service.repositoryProperty n.binding
  s!"    @Inject({n.token}) public readonly {property}: IModelCrud<{n.model}Entity>,"

def repositoryService (subjects : List Subject) : Script where
  imports :=
    .effect "reflect-metadata"
      :: .named ["Inject", "Service"] "typedi"
      :: .named ["IModelCrud"] "../lib/utils/sequelize.utils"
      :: repositoryImports subjects
  items := [.declaration {
    lead := "@Service()\n"
    keyword := .classType
    name := "RepositoryService"
    body := lines ([" \x7b", "  constructor("] ++ subjects.map repositoryProperty ++
      ["  ) \x7b\x7d", "\x7d"]) }]

def patterns : Script where
  imports := []
  items := [
    .declaration (constant DtoProperty.textPattern
      "/^[a-zA-Z0-9\\s\\-\\_\\.\\,\\:\\/]\x7b1,250\x7d$/;\n"),
    .declaration (constant "BOOLEAN_REGEX" "/^(true|false)$/;\n"),
    .declaration (constant "INTEGER_REGEX" "/^(\\d+)$/;\n"),
    .declaration (constant DtoProperty.comparatorPattern
      (comparatorPattern.literalText ++ ";\n"))]

/-- Every file about all entities, by name; `api` is the OpenAPI document of the schema. -/
def files (subjects : List Subject) (api : Json) : List (String × String) := [
  ("model-interfaces.ts", (contracts subjects).text),
  ("models.sequelize.ts", (sequelize subjects).text),
  ("models.drizzle.ts", (drizzle subjects).text),
  ("schema.graphql.ts", (graphql subjects).text),
  ("openapi.json", api.prettyText ++ "\n"),
  ("model-types.enum.ts", (modelTypes subjects).text),
  ("repository.service.ts", (repositoryService subjects).text),
  ("common.regex.ts", patterns.text)]

def artifacts (layout : Layout) (subjects : List Subject) (api : Json) : List Artifact :=
  (files subjects api).map fun (name, contents) =>
    ⟨layout.generated.join ⟨name⟩, contents, .overwrite⟩

end EntityForge.Aggregate
