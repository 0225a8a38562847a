import EntityForge.Proofs.Emission
import EntityForge.Proofs.Imports

/-!
The two GraphQL types of an entity, read side by side.

An object type is read off its text, by a grammar that says of each piece what the schema language would
say in its place. So read, it has the fields of the other type with the same arguments, and their types
differ in no more than the marks that forbid null. Those agree for every declared field and for every
relation to one row. For a relation to many rows the schema language has two such marks and the object type
has none. Main statements: `Denotes.unique`, `denotes_declaration`, `unmarked_read` and `read_eq_iff`.
-/

namespace EntityForge.Graphql

/-- What the text of a type in an object type says in the schema language. -/
inductive Denotes : String → TypeRef → Prop
  | scalar (scalar : GraphqlScalar) : Denotes scalar.runtime (.named scalar.name)
  | object (entity : String) : Denotes (entity ++ "Type") (.named entity)
  | list {text : String} {item : TypeRef} (h : Denotes text item) :
    Denotes ("new GraphQLList(" ++ text ++ ")") (.list item)
  | nonNull {text : String} {type : TypeRef} (h : Denotes text type) :
    Denotes ("new GraphQLNonNull(" ++ text ++ ")") (.nonNull type)

/-- What the text of a field of an object type says; how it is resolved is no part of it. -/
inductive FieldDenotes : String → FieldDefinition → Prop
  | plain {name text : String} {type : TypeRef} (h : Denotes text type) :
    FieldDenotes s!"    {name}: \x7b type: {text} \x7d,\n" ⟨name, [], type⟩
  | asking (resolve : List String) {name text argument : String} {type : TypeRef} {scalar : GraphqlScalar}
    (h : Denotes text type) :
    FieldDenotes (TypeScript.lines ([s!"    {name}: \x7b", s!"      type: {text},",
        s!"      args: \x7b {argument}: \x7b type: {scalar.runtime} \x7d \x7d,"] ++ resolve ++ ["    \x7d,"]))
      ⟨name, [⟨argument, scalar⟩], type⟩

/-- What the text of an object type says: its name, and its fields in order. -/
def TypeDenotes (text : String) (type : TypeDefinition) : Prop :=
  ∃ fields, text = s!"export const {type.name}Type: GraphQLObjectType = new GraphQLObjectType(\x7b\n" ++
      s!"  name: \"{type.name}\",\n  fields: () => (\x7b\n" ++ String.join fields ++ "  \x7d),\n\x7d);\n" ∧
    List.Forall₂ FieldDenotes fields type.fields

/-- The type of the schema language that an expression stands for. -/
def TypeExpression.read : TypeExpression → TypeRef
  | .scalar type => .named type.name
  | .object entity => .named entity
  | .list item => .list item.read
  | .nonNull type => .nonNull type.read

namespace TypeExpression

/-- The last letter of an expression tells a scalar from an object, and both from what is wrapped. -/
def ending : TypeExpression → Char
  | .scalar .int | .scalar .float => 't'
  | .scalar .boolean => 'n'
  | .scalar .string => 'g'
  | .object _ => 'e'
  | .list _ | .nonNull _ => ')'

theorem getLast?_text (e : TypeExpression) : e.text.toList.getLast? = some e.ending := by
  cases e with
  | scalar scalar => cases scalar <;> decide
  | object entity => exact getLast?_append_text rfl
  | list item => exact getLast?_append_text rfl
  | nonNull type => exact getLast?_append_text rfl

theorem ending_of_text {e other : TypeExpression} (h : e.text = other.text) : e.ending = other.ending := by
  have hlast := congrArg (fun s => s.toList.getLast?) h
  simpa only [getLast?_text, Option.some.injEq] using hlast

theorem ending_scalar (scalar : GraphqlScalar) :
    (TypeExpression.scalar scalar).ending ≠ 'e' ∧ (TypeExpression.scalar scalar).ending ≠ ')' := by
  cases scalar <;> decide

theorem runtime_inj {scalar other : GraphqlScalar} (h : scalar.runtime = other.runtime) :
    scalar = other := by
  revert h
  cases scalar <;> cases other <;> decide

theorem wrapped_inj {wrapper text other : String} (h : wrapper ++ text ++ ")" = wrapper ++ other ++ ")") :
    text = other :=
  (String.append_right_inj wrapper).1 ((String.append_left_inj ")").1 h)

theorem list_ne_nonNull (text other : String) :
    "new GraphQLList(" ++ text ++ ")" ≠ "new GraphQLNonNull(" ++ other ++ ")" := by
  intro h
  have hchar := congrArg (fun s => s.toList[11]?) h
  simp at hchar

/-- No two expressions are written alike. -/
theorem text_injective : Function.Injective text := by
  intro e
  induction e with
  | scalar scalar =>
    intro other h
    have hending := ending_of_text h
    cases other with
    | scalar scalar' => rw [runtime_inj h]
    | object entity => exact absurd hending (ending_scalar scalar).1
    | list item => exact absurd hending (ending_scalar scalar).2
    | nonNull type => exact absurd hending (ending_scalar scalar).2
  | object entity =>
    intro other h
    have hending := ending_of_text h
    cases other with
    | scalar scalar => exact absurd hending.symm (ending_scalar scalar).1
    | object entity' => rw [(String.append_left_inj "Type").1 h]
    | list item => simp [ending] at hending
    | nonNull type => simp [ending] at hending
  | list item ih =>
    intro other h
    have hending := ending_of_text h
    cases other with
    | scalar scalar => exact absurd hending.symm (ending_scalar scalar).2
    | object entity => simp [ending] at hending
    | list item' => rw [ih (wrapped_inj h)]
    | nonNull type => exact absurd h (list_ne_nonNull _ _)
  | nonNull type ih =>
    intro other h
    have hending := ending_of_text h
    cases other with
    | scalar scalar => exact absurd hending.symm (ending_scalar scalar).2
    | object entity => simp [ending] at hending
    | list item => exact absurd h.symm (list_ne_nonNull _ _)
    | nonNull type' => rw [ih (wrapped_inj h)]

end TypeExpression

/-- What is written for an expression says what the expression stands for, and nothing else says anything. -/
theorem denotes_iff {text : String} {type : TypeRef} :
    Denotes text type ↔ ∃ e : TypeExpression, e.text = text ∧ e.read = type := by
  constructor
  · intro h
    induction h with
    | scalar scalar => exact ⟨.scalar scalar, rfl, rfl⟩
    | object entity => exact ⟨.object entity, rfl, rfl⟩
    | list h ih =>
      obtain ⟨e, rfl, rfl⟩ := ih
      exact ⟨.list e, rfl, rfl⟩
    | nonNull h ih =>
      obtain ⟨e, rfl, rfl⟩ := ih
      exact ⟨.nonNull e, rfl, rfl⟩
  · rintro ⟨e, rfl, rfl⟩
    induction e with
    | scalar scalar => exact .scalar scalar
    | object entity => exact .object entity
    | list item ih => exact .list ih
    | nonNull type ih => exact .nonNull ih

theorem Denotes.unique {text : String} {type other : TypeRef} (h : Denotes text type)
    (h' : Denotes text other) : type = other := by
  obtain ⟨e, htext, rfl⟩ := denotes_iff.1 h
  obtain ⟨e', htext', rfl⟩ := denotes_iff.1 h'
  rw [TypeExpression.text_injective (htext.trans htext'.symm)]

def ScalarField.read (f : ScalarField) : FieldDefinition := ⟨f.name, [], f.type.read⟩

def RelationField.read (f : RelationField) : FieldDefinition :=
  ⟨f.name, [⟨f.argument, f.argumentType⟩], f.type.read⟩

def ObjectType.read (type : ObjectType) : TypeDefinition :=
  ⟨type.name, type.fields.map ScalarField.read ++ type.relations.map RelationField.read⟩

theorem denotes_text (e : TypeExpression) : Denotes e.text e.read := denotes_iff.2 ⟨e, rfl, rfl⟩

theorem denotes_scalarField (f : ScalarField) : FieldDenotes f.text f.read := .plain (denotes_text f.type)

theorem denotes_relationField (f : RelationField) : FieldDenotes f.text f.read :=
  .asking [
    s!"      resolve: (parent: {f.owner}Entity, args: \x7b {f.argument}?: {f.keyType} \x7d) =>",
    s!"        {f.owner}Resolvers.{f.name}(args.{f.argument} ?? parent.{f.parentKey}),"]
    (denotes_text f.type)

theorem ObjectType.text_declaration (type : ObjectType) :
    type.declaration.text =
      s!"export const {type.name}Type: GraphQLObjectType = new GraphQLObjectType(\x7b\n" ++
        s!"  name: \"{type.name}\",\n  fields: () => (\x7b\n" ++
        String.join (type.fields.map ScalarField.text ++ type.relations.map RelationField.text) ++
        "  \x7d),\n\x7d);\n" := by
  rw [String.join_append]
  simp only [TypeScript.Declaration.text, declaration, objectBinding, TypeScript.Keyword.text, toString,
    String.append_assoc, String.empty_append]
  rfl

/-- The text of an object type says what the object type stands for. -/
theorem denotes_declaration (type : ObjectType) : TypeDenotes type.declaration.text type.read := by
  refine ⟨type.fields.map ScalarField.text ++ type.relations.map RelationField.text,
    type.text_declaration, ?_⟩
  refine List.rel_append ?_ ?_
  · exact List.forall₂_map_left_iff.2 (List.forall₂_map_right_iff.2
      (List.forall₂_same.2 fun f _ => denotes_scalarField f))
  · exact List.forall₂_map_left_iff.2 (List.forall₂_map_right_iff.2
      (List.forall₂_same.2 fun f _ => denotes_relationField f))

theorem writes_declaration (subject : Subject) :
    Surface.graphql.Writes subject (ObjectType.of subject).declaration.text := by
  refine IsPiece.join (List.mem_map.2 ⟨.declaration (ObjectType.of subject).declaration, ?_, rfl⟩)
  exact TypeScript.mem_spaced (List.mem_map_of_mem List.mem_cons_self)

/-- The type without the marks that forbid null. -/
def TypeRef.unmarked : TypeRef → TypeRef
  | .named name => .named name
  | .list item => .list item.unmarked
  | .nonNull type => type.unmarked

def FieldDefinition.unmarked (f : FieldDefinition) : FieldDefinition := { f with type := f.type.unmarked }

def TypeDefinition.unmarked (type : TypeDefinition) : TypeDefinition :=
  { type with fields := type.fields.map FieldDefinition.unmarked }

section Agreement

variable (owner : String) (accessor : Accessor) (field : Field)

theorem read_scalarField : (ScalarField.of field).read = FieldDefinition.ofField field := by
  unfold ScalarField.read ScalarField.of FieldDefinition.ofField
  cases field.required <;> rfl

theorem unmarked_relationField :
    (RelationField.of owner accessor).read.unmarked = (FieldDefinition.ofAccessor accessor).unmarked := by
  unfold FieldDefinition.unmarked RelationField.read RelationField.of FieldDefinition.ofAccessor
  cases accessor.kind.isMany <;> rfl

/-- A relation to many rows is marked in the schema language alone. -/
theorem read_relationField_iff :
    (RelationField.of owner accessor).read = FieldDefinition.ofAccessor accessor ↔
      accessor.kind.isMany = false := by
  unfold RelationField.read RelationField.of FieldDefinition.ofAccessor
  cases accessor.kind.isMany with
  | false => exact iff_of_true rfl rfl
  | true => simp [TypeExpression.read]

variable (subject : Subject)

/-- The two types differ in marks at most. -/
theorem unmarked_read : (ObjectType.of subject).read.unmarked = (TypeDefinition.of subject).unmarked := by
  have hfields : subject.entity.fields.map (FieldDefinition.unmarked ∘ ScalarField.read ∘ ScalarField.of) =
      subject.entity.fields.map (FieldDefinition.unmarked ∘ FieldDefinition.ofField) :=
    List.map_congr_left fun field _ => congrArg FieldDefinition.unmarked (read_scalarField field)
  have hrelations : subject.accessors.map
        (FieldDefinition.unmarked ∘ RelationField.read ∘ RelationField.of subject.entity.name) =
      subject.accessors.map (FieldDefinition.unmarked ∘ FieldDefinition.ofAccessor) :=
    List.map_congr_left fun accessor _ => unmarked_relationField subject.entity.name accessor
  simp only [TypeDefinition.unmarked, ObjectType.read, ObjectType.of, TypeDefinition.of, List.map_append,
    List.map_map, hfields, hrelations]

theorem read_eq_iff : (ObjectType.of subject).read = TypeDefinition.of subject ↔
    ∀ accessor ∈ subject.accessors, accessor.kind.isMany = false := by
  have hfields : subject.entity.fields.map (ScalarField.read ∘ ScalarField.of) =
      subject.entity.fields.map FieldDefinition.ofField :=
    List.map_congr_left fun field _ => read_scalarField field
  simp only [ObjectType.read, ObjectType.of, TypeDefinition.of, List.map_map, hfields,
    TypeDefinition.mk.injEq, true_and, List.append_cancel_left_eq, List.map_inj_left, Function.comp_apply,
    read_relationField_iff]

/-- The text of a relation's type says what the schema language says unless there are many rows. -/
theorem denotes_relation_iff :
    Denotes (RelationField.of owner accessor).type.text (FieldDefinition.ofAccessor accessor).type ↔
      accessor.kind.isMany = false := by
  have htext := denotes_text (RelationField.of owner accessor).type
  constructor
  · intro h
    have htype : (RelationField.of owner accessor).type.read = (FieldDefinition.ofAccessor accessor).type :=
      htext.unique h
    refine (read_relationField_iff owner accessor).1 ?_
    rw [RelationField.read, htype]
    rfl
  · intro hone
    rw [← (read_relationField_iff owner accessor).2 hone]
    exact htext

end Agreement

theorem kinds_of_accessors {schema : Schema} {resolved : List ResolvedEntity}
    (h : schema.resolve = .ok resolved) {result : ResolvedEntity} (hresult : result ∈ resolved) :
    result.accessors.map Accessor.kind = result.entity.relations.map Relation.kind := by
  obtain ⟨entity, -, rfl, hrelations⟩ := exists_of_forall₂_right (Schema.resolve_eq_ok.1 h) hresult
  refine map_eq_map_of_forall₂ hrelations fun relation accessor hresolve => ?_
  obtain ⟨target, association, -, -, rfl⟩ := Accessor.resolve_eq_ok.1 hresolve
  rfl

/-- Read off its text, the object type of an entity has the fields of the other type in the same order, each
with the same arguments and, marks against null aside, of the same type. A relation has the same type in both
exactly when it does not lead to many rows, so the two types are one exactly when no relation of the entity
does. -/
theorem graphql_types_agree_iff {schema : Schema} {resolved : List ResolvedEntity}
    (h : schema.resolve = .ok resolved) (policy : OwnerPolicy) {result : ResolvedEntity}
    (hresult : result ∈ resolved) :
    ∃ declaration, Surface.graphql.Writes (.of policy result) declaration ∧
      TypeDenotes declaration (ObjectType.of (.of policy result)).read ∧
      Surface.graphqlSdl.text (.of policy result) = (TypeDefinition.of (.of policy result)).text ∧
      (ObjectType.of (.of policy result)).read.unmarked =
        (TypeDefinition.of (.of policy result)).unmarked ∧
      (∀ accessor ∈ result.accessors, (Denotes (RelationField.of result.entity.name accessor).type.text
        (FieldDefinition.ofAccessor accessor).type ↔ accessor.kind.isMany = false)) ∧
      ((ObjectType.of (.of policy result)).read = TypeDefinition.of (.of policy result) ↔
        ∀ relation ∈ result.entity.relations, relation.kind.isMany = false) := by
  refine ⟨_, writes_declaration _, denotes_declaration _, rfl, unmarked_read _,
    fun accessor _ => denotes_relation_iff result.entity.name accessor, ?_⟩
  rw [read_eq_iff]
  have hkinds : (∀ kind ∈ result.accessors.map Accessor.kind, kind.isMany = false) ↔
      ∀ kind ∈ result.entity.relations.map Relation.kind, kind.isMany = false := by
    rw [kinds_of_accessors h hresult]
  rw [List.forall_mem_map, List.forall_mem_map] at hkinds
  exact hkinds

/-- Bosses are looked up one by one. -/
theorem graphql_types_agree_for_staff :
    staff.resolve = .ok staff.resolved ∧
      (ObjectType.of (.of .standard staff.resolved[0])).read =
        TypeDefinition.of (.of .standard staff.resolved[0]) := by
  have hresolve : staff.resolve = .ok staff.resolved := by decide
  have hresult : staff.resolved[0] ∈ staff.resolved := List.mem_cons_self
  obtain ⟨-, -, -, -, -, -, hiff⟩ := graphql_types_agree_iff hresolve .standard hresult
  exact ⟨hresolve, hiff.2 (by decide)⟩

/-- The friends of a person are a list that may be null, of persons that may be null, in the object type
alone. -/
theorem graphql_types_differ_for_people :
    people.resolve = .ok people.resolved ∧
      (ObjectType.of (.of .standard people.resolved[0])).read ≠
        TypeDefinition.of (.of .standard people.resolved[0]) := by
  refine ⟨people_resolve, ?_⟩
  rw [ne_eq, read_eq_iff]
  decide

end EntityForge.Graphql
