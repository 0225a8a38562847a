import EntityForge.Surface.Contract

/-!
The GraphQL type of an entity, twice: as text of the schema language, and as an object built at run
time together with a resolver for every relation.
-/

namespace EntityForge.Graphql

/-- A type of the schema language. -/
inductive TypeRef where
  | named (name : String)
  | list (item : TypeRef)
  | nonNull (type : TypeRef)
  deriving Repr, DecidableEq

def TypeRef.text : TypeRef → String
  | .named name => name
  | .list item => "[" ++ item.text ++ "]"
  | .nonNull type => type.text ++ "!"

structure Argument where
  name : String
  scalar : GraphqlScalar
  deriving Repr, DecidableEq

def Argument.text (a : Argument) : String := a.name ++ ": " ++ a.scalar.name

structure FieldDefinition where
  name : String
  arguments : List Argument
  type : TypeRef
  deriving Repr, DecidableEq

namespace FieldDefinition

def ofField (field : Field) : FieldDefinition where
  name := field.name
  arguments := []
  type :=
    let scalar := TypeRef.named field.dataType.graphql.name
    if field.required then .nonNull scalar else scalar

/-- A relation can be asked for by the key of its first hop. -/
def ofAccessor (accessor : Accessor) : FieldDefinition where
  name := accessor.name
  arguments :=
    let lookup := accessor.association.firstHop
    [⟨lookup.column, lookup.dataType.graphql⟩]
  type :=
    let target := TypeRef.named accessor.target
    if accessor.kind.isMany then .nonNull (.list (.nonNull target)) else target

def text (f : FieldDefinition) : String :=
  let arguments :=
    if f.arguments.isEmpty then ""
    else "(" ++ ", ".intercalate (f.arguments.map Argument.text) ++ ")"
  "  " ++ f.name ++ arguments ++ ": " ++ f.type.text ++ "\n"

end FieldDefinition

structure TypeDefinition where
  name : String
  fields : List FieldDefinition
  deriving Repr, DecidableEq

namespace TypeDefinition

def of (subject : Subject) : TypeDefinition where
  name := subject.entity.name
  fields := subject.entity.fields.map FieldDefinition.ofField
    ++ subject.accessors.map FieldDefinition.ofAccessor

def text (t : TypeDefinition) : String :=
  s!"type {t.name} \x7b\n" ++ String.join (t.fields.map FieldDefinition.text) ++ "\x7d\n"

end TypeDefinition

/-- A type as an expression that is evaluated at run time. -/
inductive TypeExpression where
  | scalar (scalar : GraphqlScalar)
  | object (entity : String)
  | list (item : TypeExpression)
  | nonNull (type : TypeExpression)
  deriving Repr, DecidableEq

def objectBinding (entity : String) : String := entity ++ "Type"

def TypeExpression.text : TypeExpression → String
  | .scalar type => type.runtime
  | .object entity => objectBinding entity
  | .list item => "new GraphQLList(" ++ item.text ++ ")"
  | .nonNull type => "new GraphQLNonNull(" ++ type.text ++ ")"

structure ScalarField where
  name : String
  type : TypeExpression
  deriving Repr, DecidableEq

def ScalarField.of (field : Field) : ScalarField where
  name := field.name
  type :=
    let scalar := TypeExpression.scalar field.dataType.graphql
    if field.required then .nonNull scalar else scalar

def ScalarField.text (f : ScalarField) : String :=
  let type := f.type.text
  s!"    {f.name}: \x7b type: {type} \x7d,\n"

/-- A field that calls the resolver of a relation, with the argument or else the parent's key. -/
structure RelationField where
  owner : String
  name : String
  type : TypeExpression
  argument : String
  argumentType : GraphqlScalar
  keyType : String
  parentKey : String
  deriving Repr, DecidableEq

def RelationField.of (owner : String) (accessor : Accessor) : RelationField :=
  let lookup := accessor.association.firstHop
  { owner
    name := accessor.name
    type :=
      let target := TypeExpression.object accessor.target
      if accessor.kind.isMany then .list target else target
    argument := lookup.column
    argumentType := lookup.dataType.graphql
    keyType := lookup.dataType.display
    parentKey := lookup.parentKey }

def RelationField.text (f : RelationField) : String :=
  let type := f.type.text
  let argumentType := f.argumentType.runtime
  TypeScript.lines [
    s!"    {f.name}: \x7b",
    s!"      type: {type},",
    s!"      args: \x7b {f.argument}: \x7b type: {argumentType} \x7d \x7d,",
    s!"      resolve: (parent: {f.owner}Entity, args: \x7b {f.argument}?: {f.keyType} \x7d) =>",
    s!"        {f.owner}Resolvers.{f.name}(args.{f.argument} ?? parent.{f.parentKey}),",
    "    \x7d,"]

/-- The object type of an entity. -/
structure ObjectType where
  name : String
  fields : List ScalarField
  relations : List RelationField
  deriving Repr, DecidableEq

namespace ObjectType

def of (subject : Subject) : ObjectType where
  name := subject.entity.name
  fields := subject.entity.fields.map ScalarField.of
  relations := subject.accessors.map (RelationField.of subject.entity.name)

def declaration (t : ObjectType) : TypeScript.Declaration where
  lead := ""
  keyword := .constant
  name := objectBinding t.name
  body := ": GraphQLObjectType = new GraphQLObjectType(\x7b\n"
    ++ s!"  name: \"{t.name}\",\n  fields: () => (\x7b\n"
    ++ String.join (t.fields.map ScalarField.text)
    ++ String.join (t.relations.map RelationField.text) ++ "  \x7d),\n\x7d);\n"

end ObjectType

/-- How many rows a repository is asked for. -/
inductive Find where
  | one
  | all
  deriving Repr, DecidableEq

def Find.text : Find → String
  | .one => "findOne"
  | .all => "findAll"

/-- Where the rows come from: one repository, or a second one by way of join rows. -/
inductive Source where
  | direct (token column : String)
  | joined (joinToken column targetToken targetColumn joinColumn : String)
  deriving Repr, DecidableEq

structure Resolver where
  name : String
  keyType : String
  result : ContractType
  find : Find
  source : Source
  deriving Repr, DecidableEq

def tokenOf (entity : String) : String := (Names.ofModel entity).token

def Resolver.of (accessor : Accessor) : Resolver where
  name := accessor.name
  keyType := accessor.association.firstHop.dataType.display
  result := accessor.contractType
  find := if accessor.kind.isMany then .all else .one
  source :=
    match accessor.association with
    | .direct lookup => .direct (tokenOf lookup.entity) lookup.column
    | .joined through lookup joinColumn targetColumn =>
      .joined (tokenOf through) lookup.column (tokenOf accessor.target) targetColumn joinColumn

def Resolver.body (r : Resolver) : List String :=
  let find := r.find.text
  match r.source with
  | .direct token column =>
    [s!"    return Container.get({token}).{find}(\x7b where: \x7b {column}: key \x7d \x7d);"]
  | .joined joinToken column targetToken targetColumn joinColumn =>
    let joins := s!"await Container.get({joinToken}).findAll(\x7b where: \x7b {column}: key \x7d \x7d)"
    let values := s!"joins.map((row) => row.{joinColumn})"
    [s!"    const joins = {joins};",
     s!"    return Container.get({targetToken}).{find}(\x7b where: \x7b {targetColumn}: {values} \x7d \x7d);"]

def Resolver.text (r : Resolver) : String :=
  let result := r.result.text
  TypeScript.lines <|
    s!"  {r.name}: async (key: {r.keyType}): Promise<{result}> => \x7b" :: r.body ++ ["  \x7d,"]

/-- The resolvers of an entity that has relations. -/
structure Resolvers where
  owner : String
  resolvers : List Resolver
  deriving Repr, DecidableEq

namespace Resolvers

def of? (subject : Subject) : Option Resolvers :=
  if subject.accessors.isEmpty then none
  else some ⟨subject.entity.name, subject.accessors.map Resolver.of⟩

def declaration (r : Resolvers) : TypeScript.Declaration :=
  TypeScript.constant (r.owner ++ "Resolvers") <|
    "\x7b\n" ++ String.join (r.resolvers.map Resolver.text) ++ "\x7d;\n"

end Resolvers

def declarations (subject : Subject) : List TypeScript.Declaration :=
  (ObjectType.of subject).declaration :: (Resolvers.of? subject).toList.map Resolvers.declaration

def items (subject : Subject) : List TypeScript.Item :=
  TypeScript.spaced ((declarations subject).map .declaration)

end EntityForge.Graphql
