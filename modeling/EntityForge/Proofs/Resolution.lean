import EntityForge.Proofs.Refusal
import EntityForge.Schema.Accessor

/-!
What a relation that resolves has been resolved to. Each step of the resolution is described once by all
that has to hold when it is not refused, so that a property of accessors never opens the resolution
again. Main statements: `resolve_eq_ok`, from which everything else about one accessor follows, and
`mem_accessors` for the accessors of a schema.
-/

namespace EntityForge

namespace Schema

theorem name_of_entity? {schema : Schema} {name : String} {entity : Entity}
    (h : schema.entity? name = some entity) : entity.name = name := by
  have hname := List.find?_some h
  simpa using hname

end Schema

namespace Accessor

theorem requireEntity_eq_ok {schema : Schema} {owner target name : String} {entity : Entity} :
    requireEntity schema owner target name = .ok entity ↔ schema.entity? name = some entity := by
  unfold requireEntity
  cases schema.entity? name <;> simp

theorem requireColumn_eq_ok {owner target : String} {entity : Entity} {column : String}
    {dataType : DataType} :
    requireColumn owner target entity column = .ok dataType ↔
      entity.columnType? column = some dataType := by
  unfold requireColumn
  cases entity.columnType? column <;> simp

theorem keyLookup_eq_ok {owner queried : Entity} {target column parentKey : String}
    {lookup : KeyLookup} :
    keyLookup owner target queried column parentKey = .ok lookup ↔
      (∃ parentType, owner.columnType? parentKey = some parentType) ∧
        ∃ dataType, queried.columnType? column = some dataType ∧
          lookup = ⟨queried.name, column, parentKey, dataType⟩ := by
  simp only [keyLookup, bind_eq_ok, pure_eq_ok, requireColumn_eq_ok]
  constructor
  · rintro ⟨parentType, hparent, dataType, hcolumn, rfl⟩
    exact ⟨⟨parentType, hparent⟩, dataType, hcolumn, rfl⟩
  · rintro ⟨⟨parentType, hparent⟩, dataType, hcolumn, rfl⟩
    exact ⟨parentType, hparent, dataType, hcolumn, rfl⟩

theorem direct_eq_ok {owner target : Entity} {relation : Relation} {association : Association} :
    direct owner target relation = .ok association ↔
      ∃ lookup, keyLookup owner target.name target (directKeys owner target relation).1
          (directKeys owner target relation).2 = .ok lookup ∧
        association = .direct lookup := by
  rcases hkeys : directKeys owner target relation with ⟨column, parentKey⟩
  simp only [direct, hkeys, bind_eq_ok, pure_eq_ok, @eq_comm _ association]

/-- A joined relation needs four columns, two of them on the join entity. -/
theorem joined_eq_ok {owner target join : Entity} {relation : Relation}
    {association : Association} :
    joined owner target join relation = .ok association ↔
      ∃ lookup, keyLookup owner target.name join relation.foreignKey
          (joinedKeys owner target relation).1 = .ok lookup ∧
        (∃ joinType, join.columnType? (joinColumn join target) = some joinType) ∧
        (∃ targetType, target.columnType? (joinedKeys owner target relation).2 =
          some targetType) ∧
        association = .joined join.name lookup (joinColumn join target)
          (joinedKeys owner target relation).2 := by
  rcases hkeys : joinedKeys owner target relation with ⟨parentKey, targetColumn⟩
  simp only [joined, hkeys, bind_eq_ok, pure_eq_ok, requireColumn_eq_ok]
  constructor
  · rintro ⟨lookup, hlookup, joinType, hjoin, targetType, htarget, rfl⟩
    exact ⟨lookup, hlookup, ⟨joinType, hjoin⟩, ⟨targetType, htarget⟩, rfl⟩
  · rintro ⟨lookup, hlookup, ⟨joinType, hjoin⟩, ⟨targetType, htarget⟩, rfl⟩
    exact ⟨lookup, hlookup, joinType, hjoin, targetType, htarget, rfl⟩

/-- The association between an owner and a target that are known, by way of the join entity that the
relation names if it goes through one. -/
def Associates (schema : Schema) (owner target : Entity) (relation : Relation)
    (association : Association) : Prop :=
  match joinOf relation with
  | some name => ∃ join, schema.entity? name = some join ∧
      joined owner target join relation = .ok association
  | none => direct owner target relation = .ok association

theorem resolve_eq_ok {schema : Schema} {owner : Entity} {relation : Relation}
    {accessor : Accessor} :
    resolve schema owner relation = .ok accessor ↔
      ∃ target association, schema.entity? relation.target = some target ∧
        Associates schema owner target relation association ∧
        accessor = ⟨relation.kind, relation.name, target.name, association⟩ := by
  unfold resolve Associates
  simp only [bind_eq_ok, requireEntity_eq_ok]
  cases joinOf relation with
  | some name =>
    simp only [bind_eq_ok, pure_eq_ok, requireEntity_eq_ok]
    constructor
    · rintro ⟨target, htarget, join, hjoin, association, hjoined, rfl⟩
      exact ⟨target, association, htarget, ⟨join, hjoin, hjoined⟩, rfl⟩
    · rintro ⟨target, association, htarget, ⟨join, hjoin, hjoined⟩, rfl⟩
      exact ⟨target, htarget, join, hjoin, association, hjoined, rfl⟩
  | none =>
    simp only [bind_eq_ok, pure_eq_ok]
    constructor
    · rintro ⟨target, htarget, association, hdirect, rfl⟩
      exact ⟨target, association, htarget, hdirect, rfl⟩
    · rintro ⟨target, association, htarget, hdirect, rfl⟩
      exact ⟨target, htarget, association, hdirect, rfl⟩

theorem associates_direct_iff {schema : Schema} {owner target : Entity} {relation : Relation}
    {lookup : KeyLookup} :
    Associates schema owner target relation (.direct lookup) ↔
      joinOf relation = none ∧ keyLookup owner target.name target
        (directKeys owner target relation).1 (directKeys owner target relation).2 = .ok lookup := by
  unfold Associates
  cases joinOf relation with
  | some name => simp [joined_eq_ok]
  | none => simp [direct_eq_ok]

theorem associates_joined_iff {schema : Schema} {owner target : Entity} {relation : Relation}
    {through : String} {lookup : KeyLookup} {column targetColumn : String} :
    Associates schema owner target relation (.joined through lookup column targetColumn) ↔
      joinOf relation = some through ∧ ∃ join, schema.entity? through = some join ∧
        keyLookup owner target.name join relation.foreignKey
          (joinedKeys owner target relation).1 = .ok lookup ∧
        (∃ joinType, join.columnType? column = some joinType) ∧
        (∃ targetType, target.columnType? targetColumn = some targetType) ∧
        column = joinColumn join target ∧ targetColumn = (joinedKeys owner target relation).2 := by
  unfold Associates
  cases joinOf relation with
  | none => simp [direct_eq_ok]
  | some name =>
    simp only [joined_eq_ok, Option.some.injEq, Association.joined.injEq]
    constructor
    · rintro ⟨join, hjoin, lookup', hlookup, hcolumn, htarget, rfl, rfl, rfl, rfl⟩
      obtain rfl := Schema.name_of_entity? hjoin
      exact ⟨rfl, join, hjoin, hlookup, hcolumn, htarget, rfl, rfl⟩
    · rintro ⟨rfl, join, hjoin, hlookup, hcolumn, htarget, rfl, rfl⟩
      exact ⟨join, hjoin, lookup, hlookup, hcolumn, htarget,
        (Schema.name_of_entity? hjoin).symm, rfl, rfl, rfl⟩

theorem joinOf_eq_some_iff {relation : Relation} {through : String} :
    joinOf relation = some through ↔
      relation.kind.isMany = true ∧ relation.through = some through := by
  simp [joinOf]

end Accessor

namespace Schema

/-- A schema resolves entity by entity and relation by relation, in order. -/
theorem resolve_eq_ok {schema : Schema} {resolved : List ResolvedEntity} :
    schema.resolve = .ok resolved ↔
      List.Forall₂ (fun entity result => result.entity = entity ∧
        List.Forall₂ (fun relation accessor =>
          Accessor.resolve schema entity relation = .ok accessor)
          entity.relations result.accessors) schema.entities resolved := by
  have hentity (entity : Entity) (result : ResolvedEntity) :
      (do return (⟨entity, ← entity.relations.mapM (Accessor.resolve schema entity)⟩ :
        ResolvedEntity)) = Except.ok (ε := ResolveError) result ↔
        result.entity = entity ∧ List.Forall₂ (fun relation accessor =>
          Accessor.resolve schema entity relation = .ok accessor)
          entity.relations result.accessors := by
    simp only [bind_eq_ok, pure_eq_ok, mapM_eq_ok]
    constructor
    · rintro ⟨accessors, haccessors, rfl⟩
      exact ⟨rfl, haccessors⟩
    · rintro ⟨rfl, haccessors⟩
      exact ⟨result.accessors, haccessors, rfl⟩
  simp only [resolve, mapM_eq_ok, hentity]

theorem entities_of_resolve {schema : Schema} {resolved : List ResolvedEntity}
    (h : schema.resolve = .ok resolved) : resolved.map ResolvedEntity.entity = schema.entities := by
  have hall := map_eq_map_of_forall₂ (f := id) (resolve_eq_ok.1 h) fun _ _ hresult => hresult.1
  rwa [List.map_id] at hall

/-- An accessor of a resolved entity comes from one of the relations that the entity declares. -/
theorem mem_accessors {schema : Schema} {resolved : List ResolvedEntity}
    (h : schema.resolve = .ok resolved) {result : ResolvedEntity} (hresult : result ∈ resolved)
    {accessor : Accessor} (haccessor : accessor ∈ result.accessors) :
    result.entity ∈ schema.entities ∧ ∃ relation ∈ result.entity.relations,
      Accessor.resolve schema result.entity relation = .ok accessor := by
  obtain ⟨entity, hentity, rfl, hrelations⟩ :=
    exists_of_forall₂_right (resolve_eq_ok.1 h) hresult
  exact ⟨hentity, exists_of_forall₂_right hrelations haccessor⟩

end Schema

end EntityForge
