import EntityForge.Proofs.GraphqlTypes

/-!
What a relation asks first.

Of a relation three things are written for GraphQL: a line of the schema language, a field of the object
type and a resolver. Each of them speaks of the column of the first hop, and gives a type that is declared
elsewhere, on the entity to which that hop leads. Here all three are written again from one question, which
is put to that entity, and the texts are made of nothing else about relations. Main statements:
`isFirst_of_resolve`, `definition_first`, `field_first`, `resolver_first` and `graphql_asks_first_hop`.
-/

namespace EntityForge.Graphql

/-- Which rows of an entity have a key in one of their columns. -/
structure Question where
  queried : Entity
  column : String
  type : DataType

namespace Question

/-- The question is about the column of the first hop, with the type that is declared on the entity which is
looked up there. An `id` that no field declares is an integer. -/
structure IsFirst (schema : Schema) (owner : Entity) (accessor : Accessor) (q : Question) : Prop where
  queried : schema.entity? accessor.association.firstHop.entity = some q.queried
  column : q.column = accessor.association.firstHop.column
  type : (∃ field, q.queried.field? q.column = some field ∧ field.dataType = q.type) ∨
    q.queried.Assumes q.column ∧ q.type = .integer
  /-- Unless it is given, the key is a column of the owner, whatever its type. -/
  parentKey : ∃ type, owner.columnType? accessor.association.firstHop.parentKey = some type
  /-- The rows that are found are those of the target, or lead to them. -/
  answer : match accessor.association with
    | .direct _ => q.queried.name = accessor.target
    | .joined through .. =>
      q.queried.name = through ∧ ∃ target, schema.entity? accessor.target = some target

variable (q : Question) (owner : String) (accessor : Accessor)

/-- A line of the schema language: the question gives the argument. -/
def definition : String :=
  let output := if accessor.kind.isMany then s!"[{accessor.target}!]!" else accessor.target
  s!"  {accessor.name}({q.column}: {q.type.graphql.name}): {output}\n"

/-- A field of an object type: the question gives the argument, both times, and the owner the key that is
asked for when there is no argument. -/
def field : String :=
  let target := accessor.target ++ "Type"
  let output := if accessor.kind.isMany then s!"new GraphQLList({target})" else target
  let key := accessor.association.firstHop.parentKey
  TypeScript.lines [
    s!"    {accessor.name}: \x7b",
    s!"      type: {output},",
    s!"      args: \x7b {q.column}: \x7b type: {q.type.graphql.runtime} \x7d \x7d,",
    s!"      resolve: (parent: {owner}Entity, args: \x7b {q.column}?: {q.type.display} \x7d) =>",
    s!"        {owner}Resolvers.{accessor.name}(args.{q.column} ?? parent.{key}),",
    "    \x7d,"]

/-- What a resolver does with a key: it puts the question to the repository of the queried entity and returns
the answer, or goes on from there to the repository of the target. -/
def steps : List String :=
  let find := if accessor.kind.isMany then "findAll" else "findOne"
  let repository := (Names.ofModel q.queried.name).token
  match accessor.association with
  | .direct _ =>
    [s!"    return Container.get({repository}).{find}(\x7b where: \x7b {q.column}: key \x7d \x7d);"]
  | .joined _ _ joinColumn targetColumn =>
    let joins := s!"await Container.get({repository}).findAll(\x7b where: \x7b {q.column}: key \x7d \x7d)"
    let related := (Names.ofModel accessor.target).token
    let values := s!"joins.map((row) => row.{joinColumn})"
    [s!"    const joins = {joins};",
     s!"    return Container.get({related}).{find}(\x7b where: \x7b {targetColumn}: {values} \x7d \x7d);"]

/-- A resolver: the question gives the type of the key, and is asked. -/
def resolver : String :=
  let rows := accessor.target ++ "Entity" ++ if accessor.kind.isMany then "[]" else ""
  TypeScript.lines <|
    s!"  {accessor.name}: async (key: {q.type.display}): Promise<{rows}> => \x7b"
      :: q.steps accessor ++ ["  \x7d,"]

/-- The question about the column of the first hop, with the type that resolution has found. -/
def first (queried : Entity) (accessor : Accessor) : Question :=
  ⟨queried, accessor.association.firstHop.column, accessor.association.firstHop.dataType⟩

variable {queried : Entity} {owner : String} {accessor : Accessor}

theorem definition_first :
    (first queried accessor).definition accessor = (FieldDefinition.ofAccessor accessor).text := by
  unfold definition FieldDefinition.text FieldDefinition.ofAccessor
  cases accessor.kind.isMany <;>
    simp [first, TypeRef.text, Argument.text, String.append_assoc, toString]

theorem field_first :
    (first queried accessor).field owner accessor = (RelationField.of owner accessor).text := by
  unfold field RelationField.text RelationField.of
  cases accessor.kind.isMany <;> rfl

variable {schema : Schema} {entity : Entity}

/-- A resolver is written from names alone, and they are those of the entity that the question is put to. -/
theorem resolver_first (h : (first queried accessor).IsFirst schema entity accessor) :
    (first queried accessor).resolver accessor = (Resolver.of accessor).text := by
  obtain ⟨kind, name, target, association⟩ := accessor
  cases association with
  | direct lookup =>
    have hname : queried.name = lookup.entity := Schema.name_of_entity? h.queried
    unfold resolver steps Resolver.text Resolver.body Resolver.of
    simp only [first, hname, Accessor.contractType, ContractType.text]
    cases kind.isMany <;> rfl
  | joined through lookup joinColumn targetColumn =>
    have hname : queried.name = through := h.answer.1
    unfold resolver steps Resolver.text Resolver.body Resolver.of
    simp only [first, hname, Accessor.contractType, ContractType.text]
    cases kind.isMany <;> rfl

theorem isFirst_of_resolve {relation : Relation}
    (h : Accessor.resolve schema entity relation = .ok accessor) :
    ∃ queried, (first queried accessor).IsFirst schema entity accessor := by
  obtain ⟨target, association, htarget, hassociates, rfl⟩ := Accessor.resolve_eq_ok.1 h
  rw [← Schema.name_of_entity? htarget] at htarget
  cases association with
  | direct lookup =>
    obtain ⟨-, hlookup⟩ := Accessor.associates_direct_iff.1 hassociates
    obtain ⟨hparent, type, hcolumn, rfl⟩ := Accessor.keyLookup_eq_ok.1 hlookup
    exact ⟨target, htarget, rfl, Entity.columnType?_eq_some_iff_field?.1 hcolumn, hparent, rfl⟩
  | joined through lookup joinColumn targetColumn =>
    obtain ⟨-, join, hjoin, hlookup, -⟩ := Accessor.associates_joined_iff.1 hassociates
    obtain rfl := Schema.name_of_entity? hjoin
    obtain ⟨hparent, type, hcolumn, rfl⟩ := Accessor.keyLookup_eq_ok.1 hlookup
    exact ⟨join, hjoin, rfl, Entity.columnType?_eq_some_iff_field?.1 hcolumn, hparent, rfl, target, htarget⟩

end Question

/-- The type of an entity in the schema language, given the lines of its relations. -/
def schemaText (entity : Entity) (definitions : List String) : String :=
  s!"type {entity.name} \x7b\n" ++
    String.join ((entity.fields.map fun field => (FieldDefinition.ofField field).text) ++ definitions) ++
    "\x7d\n"

/-- The object type of an entity and its resolvers, given what is written of each relation. -/
def objectText (entity : Entity) (fields resolvers : List String) : String :=
  s!"export const {entity.name}Type: GraphQLObjectType = new GraphQLObjectType(\x7b\n" ++
    s!"  name: \"{entity.name}\",\n  fields: () => (\x7b\n" ++
    String.join ((entity.fields.map fun field => (ScalarField.of field).text) ++ fields) ++
    "  \x7d),\n\x7d);\n" ++
    if resolvers.isEmpty then ""
    else s!"\nexport const {entity.name}Resolvers = \x7b\n" ++ String.join resolvers ++ "\x7d;\n"

theorem text_graphqlSdl (subject : Subject) :
    Surface.graphqlSdl.text subject = schemaText subject.entity
      (subject.accessors.map fun accessor => (FieldDefinition.ofAccessor accessor).text) := by
  unfold Surface.text TypeDefinition.text TypeDefinition.of schemaText
  simp only [List.map_append, List.map_map, Function.comp_def]

theorem Resolvers.text_declaration (r : Resolvers) :
    "\n" ++ r.declaration.text =
      s!"\nexport const {r.owner}Resolvers = \x7b\n" ++ String.join (r.resolvers.map Resolver.text) ++
        "\x7d;\n" := by
  simp only [TypeScript.Declaration.text, declaration, TypeScript.constant, TypeScript.Keyword.text, toString,
    String.append_assoc, String.empty_append]
  rfl

theorem text_graphql (subject : Subject) :
    Surface.graphql.text subject = objectText subject.entity
      (subject.accessors.map fun accessor => (RelationField.of subject.entity.name accessor).text)
      (subject.accessors.map fun accessor => (Resolver.of accessor).text) := by
  have hobject := (ObjectType.of subject).text_declaration
  simp only [ObjectType.of, List.map_map, Function.comp_def] at hobject
  have hresolvers := (Resolvers.mk subject.entity.name (subject.accessors.map Resolver.of)).text_declaration
  simp only [List.map_map, Function.comp_def] at hresolvers
  unfold Surface.text items declarations objectText Resolvers.of?
  rw [← hobject, ← hresolvers]
  cases haccessors : subject.accessors with
  | nil => simp [TypeScript.spaced, TypeScript.Item.text, ObjectType.of, haccessors]
  | cons accessor rest =>
    simp [TypeScript.spaced, TypeScript.Item.text, TypeScript.blankLine, ObjectType.of, haccessors]

/-- All that is written for GraphQL about the relations of an entity comes from one question for each, which
is about the column of its first hop. -/
theorem graphql_asks_first_hop {schema : Schema} {resolved : List ResolvedEntity}
    (h : schema.resolve = .ok resolved) (policy : OwnerPolicy) {result : ResolvedEntity}
    (hresult : result ∈ resolved) :
    ∃ ask : Accessor → Question,
      (∀ accessor ∈ result.accessors, (ask accessor).IsFirst schema result.entity accessor) ∧
      Surface.graphqlSdl.text (.of policy result) = schemaText result.entity
        (result.accessors.map fun accessor => (ask accessor).definition accessor) ∧
      Surface.graphql.text (.of policy result) = objectText result.entity
        (result.accessors.map fun accessor => (ask accessor).field result.entity.name accessor)
        (result.accessors.map fun accessor => (ask accessor).resolver accessor) := by
  have hask : ∀ accessor ∈ result.accessors, ∃ queried,
      (Question.first queried accessor).IsFirst schema result.entity accessor := by
    intro accessor haccessor
    obtain ⟨-, relation, -, hrelation⟩ := Schema.mem_accessors h hresult haccessor
    exact Question.isFirst_of_resolve hrelation
  have : Nonempty Entity := ⟨result.entity⟩
  choose! queried hfirst using hask
  refine ⟨fun accessor => .first (queried accessor) accessor, hfirst, ?_, ?_⟩
  · simp only [Question.definition_first]
    exact text_graphqlSdl _
  · have hresolvers : (result.accessors.map fun accessor =>
        (Question.first (queried accessor) accessor).resolver accessor) =
          result.accessors.map fun accessor => (Resolver.of accessor).text :=
      List.map_congr_left fun accessor haccessor => Question.resolver_first (hfirst accessor haccessor)
    simp only [Question.field_first, hresolvers]
    exact text_graphql _

/-- Those whom a person has made friends with are found by the friendships that the person has accepted. -/
theorem graphql_asks_for_friendships :
    people.resolve = .ok people.resolved ∧ ∃ q : Question,
      q.IsFirst people people.entities[0] people.resolved[0].accessors[1] ∧
      q.queried = people.entities[1] ∧ q.column = "friend_id" ∧ q.type = .integer ∧
      q.steps people.resolved[0].accessors[1] = [
        "    const joins = await Container.get(FRIENDSHIP_REPO_INJECT_TOKEN)" ++
          ".findAll(\x7b where: \x7b friend_id: key \x7d \x7d);",
        "    return Container.get(PERSON_REPO_INJECT_TOKEN)" ++
          ".findAll(\x7b where: \x7b id: joins.map((row) => row.maker_id) \x7d \x7d);"] := by
  have hresult : people.resolved[0] ∈ people.resolved := by decide
  have haccessor : people.resolved[0].accessors[1] ∈ people.resolved[0].accessors := by decide
  obtain ⟨ask, hall, -⟩ := graphql_asks_first_hop people_resolve .standard hresult
  obtain ⟨q, hfirst⟩ : ∃ q : Question, q.IsFirst people people.entities[0] people.resolved[0].accessors[1] :=
    ⟨_, hall _ haccessor⟩
  refine ⟨people_resolve, q, hfirst, ?_⟩
  obtain ⟨queried, column, type⟩ := q
  obtain rfl : people.entities[1] = queried := Option.some.inj hfirst.queried
  obtain rfl : column = "friend_id" := hfirst.column
  obtain rfl : type = .integer := by
    rcases hfirst.type with ⟨field, hfield, rfl⟩ | ⟨⟨hid, -⟩, -⟩
    · obtain rfl := Option.some.inj hfield
      rfl
    · exact absurd (show "friend_id" = Entity.implicitKey from hid) (by decide)
  exact ⟨rfl, rfl, rfl, by decide⟩

end EntityForge.Graphql
