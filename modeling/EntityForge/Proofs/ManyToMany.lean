import EntityForge.Proofs.JoinColumn
import EntityForge.Surface.Graphql
import EntityForge.Surface.Sequelize

/-!
Two accounts of a relation by way of join rows: the statement that associates two models, and the resolver
that looks rows up.

The statement is read by the options that are written in it. It may leave out a key of the owner or of the
target, and then means the primary key of that side. It never states the key of the target, so the two
accounts agree just where that one is the primary key. Main statements: `Joins.unique`,
`joins_of_joinKeys?` and `resolves_of_joinKeys?`.
-/

namespace EntityForge

/-- What leads from a row of the owner to rows of the target: join rows have in `foreignKey` what the owner
has in `sourceKey`, and in `otherKey` what the target has in `targetKey`. -/
structure JoinKeys where
  through : String
  foreignKey : String
  otherKey : String
  sourceKey : String
  targetKey : String
  deriving Repr, DecidableEq

def Accessor.joinKeys? (accessor : Accessor) : Option JoinKeys :=
  match accessor.association with
  | .direct _ => none
  | .joined through lookup joinColumn targetColumn =>
    some ⟨through, lookup.column, joinColumn, lookup.parentKey, targetColumn⟩

namespace Sequelize

theorem inQuotes_injective : Function.Injective inQuotes := by
  intro s t h
  have hchars := congrArg String.toList h
  simp only [inQuotes, String.toList_append] at hchars
  exact String.toList_inj.1 (List.append_cancel_left (List.append_cancel_right hchars))

namespace Association

/-- An option of a statement, as it is written. -/
def option? (a : Association) (key : String) : Option String := Entries.get? a.options key

/-- What a statement says of the models of two entities, when every key that it leaves out is the primary
key of its side. -/
structure Joins (a : Association) (owner target : Entity) (keys : JoinKeys) : Prop where
  isMethod : a.method = .belongsToMany
  isSource : a.source = owner.name
  isTarget : a.target = target.name
  through : a.option? "through" = some keys.through
  foreignKey : a.option? "foreignKey" = some (inQuotes keys.foreignKey)
  otherKey : a.option? "otherKey" = some (inQuotes keys.otherKey)
  sourceKey : (a.option? "sourceKey").getD (inQuotes owner.primaryKey) = inQuotes keys.sourceKey
  targetKey : (a.option? "targetKey").getD (inQuotes target.primaryKey) = inQuotes keys.targetKey

/-- A statement has one meaning. -/
theorem Joins.unique {a : Association} {owner target : Entity} {keys other : JoinKeys}
    (h : a.Joins owner target keys) (h' : a.Joins owner target other) : keys = other := by
  have hthrough := Option.some.inj (h.through.symm.trans h'.through)
  have hforeign := inQuotes_injective (Option.some.inj (h.foreignKey.symm.trans h'.foreignKey))
  have hother := inQuotes_injective (Option.some.inj (h.otherKey.symm.trans h'.otherKey))
  have hsource := inQuotes_injective (h.sourceKey.symm.trans h'.sourceKey)
  have htarget := inQuotes_injective (h.targetKey.symm.trans h'.targetKey)
  cases keys
  cases other
  simp only at hthrough hforeign hother hsource htarget
  rw [hthrough, hforeign, hother, hsource, htarget]

/-- The statement of an accessor says all its keys but the one of the target, in whose place it means the
primary key. -/
theorem joins_of_joinKeys? {owner target : Entity} {accessor : Accessor} {keys : JoinKeys}
    (htarget : accessor.target = target.name) (hkeys : accessor.joinKeys? = some keys) :
    (of owner accessor).Joins owner target { keys with targetKey := target.primaryKey } := by
  obtain ⟨kind, name, targetName, association⟩ := accessor
  cases association with
  | direct lookup => cases hkeys
  | joined through lookup joinColumn targetColumn =>
    obtain rfl := Option.some.inj hkeys
    by_cases hprimary : lookup.parentKey = owner.primaryKey
    · refine ⟨rfl, rfl, htarget, ?_, ?_, ?_, ?_, ?_⟩ <;>
        simp [of, option?, options, Entries.get?, hprimary]
    · refine ⟨rfl, rfl, htarget, ?_, ?_, ?_, ?_, ?_⟩ <;>
        simp [of, option?, options, Entries.get?, hprimary]

/-- So it says all its keys just where the key of the target is the primary key. -/
theorem joins_iff_of_joinKeys? {owner target : Entity} {accessor : Accessor} {keys : JoinKeys}
    (htarget : accessor.target = target.name) (hkeys : accessor.joinKeys? = some keys) :
    (of owner accessor).Joins owner target keys ↔ keys.targetKey = target.primaryKey := by
  have hmeant : (of owner accessor).Joins owner target { keys with targetKey := target.primaryKey } :=
    joins_of_joinKeys? htarget hkeys
  constructor
  · intro hjoins
    exact congrArg JoinKeys.targetKey (hjoins.unique hmeant)
  · intro hprimary
    rw [← hprimary] at hmeant
    exact hmeant

end Association

end Sequelize

/-- The field of a relation and the resolver it calls go from the owner to the target by some keys. -/
structure Graphql.Resolves (accessor : Accessor) (owner target : Entity) (keys : JoinKeys) :
    Prop where
  parentKey : (RelationField.of owner.name accessor).parentKey = keys.sourceKey
  source : (Resolver.of accessor).source = .joined (tokenOf keys.through) keys.foreignKey
    (tokenOf target.name) keys.targetKey keys.otherKey

theorem Graphql.resolves_of_joinKeys? {owner target : Entity} {accessor : Accessor} {keys : JoinKeys}
    (htarget : accessor.target = target.name) (hkeys : accessor.joinKeys? = some keys) :
    Resolves accessor owner target keys := by
  obtain ⟨kind, name, targetName, association⟩ := accessor
  cases association with
  | direct lookup => cases hkeys
  | joined through lookup joinColumn targetColumn =>
    obtain rfl := Option.some.inj hkeys
    obtain rfl : targetName = target.name := htarget
    exact ⟨rfl, rfl⟩

namespace Accessor

theorem joinKeys?_eq_some_iff {accessor : Accessor} {keys : JoinKeys} :
    accessor.joinKeys? = some keys ↔ ∃ lookup : KeyLookup, lookup.column = keys.foreignKey ∧
      lookup.parentKey = keys.sourceKey ∧
      accessor.association = .joined keys.through lookup keys.otherKey keys.targetKey := by
  obtain ⟨kind, name, target, association⟩ := accessor
  cases association with
  | direct lookup => simp [joinKeys?]
  | joined through lookup joinColumn targetColumn =>
    simp only [joinKeys?, Option.some.injEq, Association.joined.injEq]
    constructor
    · rintro rfl
      exact ⟨lookup, rfl, rfl, rfl, rfl, rfl, rfl⟩
    · rintro ⟨lookup', hcolumn, hparent, rfl, rfl, rfl, rfl⟩
      rw [hcolumn, hparent]

/-- Where a relation by way of join rows ends: in the primary key of the target, unless it is one of many to
many that names another key. -/
theorem targetKey_of_resolve {schema : Schema} {owner : Entity} {relation : Relation}
    {accessor : Accessor} (h : resolve schema owner relation = .ok accessor) {keys : JoinKeys}
    (hkeys : accessor.joinKeys? = some keys) :
    ∃ target, schema.entity? accessor.target = some target ∧ accessor.name = relation.name ∧
      (keys.targetKey = target.primaryKey ↔
        ∀ key, relation.kind = .belongsToMany → relation.targetKey = some key →
          key = target.primaryKey) := by
  obtain ⟨target, association, htarget, hassociates, rfl⟩ := resolve_eq_ok.1 h
  obtain ⟨lookup, -, -, hjoined⟩ := joinKeys?_eq_some_iff.1 hkeys
  obtain rfl : association = .joined keys.through lookup keys.otherKey keys.targetKey := hjoined
  obtain ⟨-, join, -, -, -, -, -, hend⟩ := associates_joined_iff.1 hassociates
  rw [← Schema.name_of_entity? htarget] at htarget
  refine ⟨target, htarget, rfl, ?_⟩
  rw [hend]
  unfold joinedKeys
  cases hkind : relation.kind with
  | belongsToMany => cases hkey : relation.targetKey <;> simp
  | hasOne => simp
  | hasMany => simp
  | belongsToOne => simp

end Accessor

/-- A joined accessor, the resolver made from it and the statement made from it go through the same join
entity and by the same keys of it and of the owner. The resolver goes on by the key of the target too; the
statement does exactly when that is the primary key, and so exactly when the relation is not one of many to
many that names another key of the target. -/
theorem statement_agrees_iff {schema : Schema} {resolved : List ResolvedEntity}
    (h : schema.resolve = .ok resolved) (policy : OwnerPolicy) {result : ResolvedEntity}
    (hresult : result ∈ resolved) {accessor : Accessor} (haccessor : accessor ∈ result.accessors)
    {keys : JoinKeys} (hkeys : accessor.joinKeys? = some keys) :
    ∃ target statement, schema.entity? accessor.target = some target ∧
      statement ∈ Sequelize.associations (.of policy result) ∧ statement.name = accessor.name ∧
      Graphql.Resolves accessor result.entity target keys ∧
      statement.Joins result.entity target { keys with targetKey := target.primaryKey } ∧
      (statement.Joins result.entity target keys ↔ keys.targetKey = target.primaryKey) ∧
      ∃ relation ∈ result.entity.relations, relation.name = accessor.name ∧
        (keys.targetKey = target.primaryKey ↔
          ∀ key, relation.kind = .belongsToMany → relation.targetKey = some key →
            key = target.primaryKey) := by
  obtain ⟨-, relation, hrelation, hresolve⟩ := Schema.mem_accessors h hresult haccessor
  obtain ⟨target, htarget, hname, hend⟩ := Accessor.targetKey_of_resolve hresolve hkeys
  have htargetName := (Schema.name_of_entity? htarget).symm
  refine ⟨target, .of result.entity accessor, htarget, List.mem_map_of_mem haccessor, ?_,
    Graphql.resolves_of_joinKeys? htargetName hkeys,
    Sequelize.Association.joins_of_joinKeys? htargetName hkeys,
    Sequelize.Association.joins_iff_of_joinKeys? htargetName hkeys,
    relation, hrelation, hname.symm, hend⟩
  obtain ⟨lookup, -, -, hjoined⟩ := Accessor.joinKeys?_eq_some_iff.1 hkeys
  rw [Sequelize.Association.of, hjoined]

theorem statement_agrees_for_friends :
    people.resolve = .ok people.resolved ∧ ∃ target statement,
      people.entity? "Person" = some target ∧
      statement ∈ Sequelize.associations (.of .standard people.resolved[0]) ∧
      statement.Joins people.entities[0] target ⟨"Friendship", "friend_id", "maker_id", "id", "id"⟩ := by
  refine ⟨people_resolve, ?_⟩
  have hresult : people.resolved[0] ∈ people.resolved := by decide
  have haccessor : people.resolved[0].accessors[1] ∈ people.resolved[0].accessors := by decide
  obtain ⟨target, statement, htarget, hstatement, -, -, -, hiff, -⟩ :=
    statement_agrees_iff people_resolve .standard hresult haccessor rfl
  have hprimary : target.primaryKey = "id" := by
    obtain rfl : people.entities[0] = target := Option.some.inj htarget
    decide
  exact ⟨target, statement, htarget, hstatement, hiff.2 hprimary.symm⟩

/-- Posts and their labels, which a post is given by the code of a label. -/
def labels : Schema where
  entities := [
    { name := "Post"
      tableName := "posts"
      fields := [⟨"id", .integer, true, true, false, none, none, none, none⟩]
      indexes := []
      relations := [
        ⟨.belongsToMany, "Label", "labels", "post_id", none, some "code", some "PostLabel"⟩] },
    { name := "Label"
      tableName := "labels"
      fields := [
        ⟨"id", .integer, true, true, false, none, none, none, none⟩,
        ⟨"code", .string, true, false, true, none, none, none, none⟩]
      indexes := []
      relations := [] },
    { name := "PostLabel"
      tableName := "post_labels"
      fields := [
        ⟨"post_id", .integer, true, false, false, none, none, none, some "Post"⟩,
        ⟨"label_code", .string, true, false, false, none, none, none, some "Label"⟩]
      indexes := []
      relations := [] }]
  api := .standard

def labels.resolved : List ResolvedEntity := [
  { entity := labels.entities[0]
    accessors := [
      ⟨.belongsToMany, "labels", "Label",
        .joined "PostLabel" ⟨"PostLabel", "post_id", "id", .integer⟩ "label_code" "code"⟩] },
  { entity := labels.entities[1], accessors := [] },
  { entity := labels.entities[2], accessors := [] }]

/-- The resolver finds labels by their code; the statement takes what stands in the join rows for their
`id`. -/
theorem statement_misses_target_key :
    labels.resolve = .ok labels.resolved ∧ ∃ accessor ∈ labels.resolved[0].accessors,
      ∃ keys target, accessor.joinKeys? = some keys ∧ labels.entity? accessor.target = some target ∧
        Graphql.Resolves accessor labels.entities[0] target keys ∧
        ¬(Sequelize.Association.of labels.entities[0] accessor).Joins labels.entities[0] target keys := by
  have hresolve : labels.resolve = .ok labels.resolved := by decide
  refine ⟨hresolve, labels.resolved[0].accessors[0], by decide,
    ⟨"PostLabel", "post_id", "label_code", "id", "code"⟩, labels.entities[1], rfl, rfl,
    Graphql.resolves_of_joinKeys? rfl rfl, ?_⟩
  rw [Sequelize.Association.joins_iff_of_joinKeys? rfl rfl]
  decide

end EntityForge
