import EntityForge.Proofs.Resolution

/-!
Which column of a join entity leads on to the target.

The join rows of an owner are found by one column, the foreign key of the relation, and the target rows by
another. The second one is taken from the join entity alone: the relation, and with it the foreign key, is
not looked at. So the two can be the same column, and then a joined accessor leads from an owner back to
itself. The theorem says exactly when they differ.
-/

namespace EntityForge

namespace Accessor

/-- The first field that references an entity is called `name`. -/
def FirstReference (fields : List Field) (entity name : String) : Prop :=
  ∃ before field after, fields = before ++ field :: after ∧ field.name = name ∧
    field.references = some entity ∧ ∀ f ∈ before, f.references ≠ some entity

/-- A column leads to an entity if it is the first reference to it, or has the name that is assumed where
there is none. -/
def LeadsTo (join : Entity) (entity column : String) : Prop :=
  FirstReference join.fields entity column ∨
    (∀ f ∈ join.fields, f.references ≠ some entity) ∧
      column = Identifier.snake entity ++ "_id"

theorem joinColumn_eq_iff (join target : Entity) (column : String) :
    joinColumn join target = column ↔ LeadsTo join target.name column := by
  unfold joinColumn LeadsTo
  cases hfind : join.fields.find? (fun f => f.references == some target.name) with
  | none =>
    have hnone : ∀ f ∈ join.fields, f.references ≠ some target.name := by
      simpa using List.find?_eq_none.1 hfind
    have hfirst : ¬ FirstReference join.fields target.name column := by
      rintro ⟨before, field, after, hfields, -, href, -⟩
      exact hnone field (by simp [hfields]) href
    simp only [hfirst, false_or]
    constructor
    · rintro rfl
      exact ⟨hnone, rfl⟩
    · rintro ⟨-, rfl⟩
      rfl
  | some field =>
    obtain ⟨href, before, after, hfields, hbefore⟩ := List.find?_eq_some_iff_append.1 hfind
    have href : field.references = some target.name := by simpa using href
    have hbefore : ∀ f ∈ before, f.references ≠ some target.name := by simpa using hbefore
    constructor
    · rintro rfl
      exact Or.inl ⟨before, field, after, hfields, rfl, href, hbefore⟩
    · rintro (⟨before', field', after', hfields', rfl, href', hbefore'⟩ | ⟨hnone, -⟩)
      · have hfind' : join.fields.find? (fun f => f.references == some target.name) =
            some field' := by
          rw [List.find?_eq_some_iff_append]
          exact ⟨by simp [href'], before', after', hfields', by simpa using hbefore'⟩
        rw [hfind] at hfind'
        exact congrArg Field.name (Option.some.inj hfind')
      · exact absurd href (hnone field (by simp [hfields]))

/-- Where the column `key` references the entity itself, it is the first reference exactly when no field
before it references the entity too. -/
theorem leadsTo_iff_of_references {join : Entity} {entity key : String}
    {before : List Field} {field : Field} {after : List Field}
    (hfields : join.fields = before ++ field :: after) (hname : field.name = key)
    (href : field.references = some entity) (hbefore : ∀ f ∈ before, f.name ≠ key) :
    LeadsTo join entity key ↔ ∀ f ∈ before, f.references ≠ some entity := by
  constructor
  · rintro (⟨before', field', after', hfields', hname', -, hbefore'⟩ | ⟨hnone, -⟩)
    · intro f hf hrefers
      rw [hfields] at hfields'
      rcases List.append_eq_append_iff.1 hfields' with ⟨more, rfl, -⟩ | ⟨more, rfl, hmore⟩
      · exact hbefore' f (List.mem_append_left _ hf) hrefers
      · cases more with
        | nil => exact hbefore' f (by simpa using hf) hrefers
        | cons first rest =>
          obtain ⟨rfl, -⟩ := List.cons.inj hmore
          exact hbefore field' (by simp) hname'
    · exact absurd href (hnone field (by simp [hfields]))
  · intro hnone
    exact Or.inl ⟨before, field, after, hfields, hname, href, hnone⟩

/-- What a joined accessor is made of: the join entity it goes through, in which the foreign key of one of
the owner's relations is looked up. -/
theorem joined_of_resolve {schema : Schema} {owner : Entity} {relation : Relation}
    {accessor : Accessor} (h : resolve schema owner relation = .ok accessor)
    {through : String} {lookup : KeyLookup} {column targetColumn : String}
    (hjoined : accessor.association = .joined through lookup column targetColumn) :
    ∃ join target, schema.entity? through = some join ∧
      accessor.target = target.name ∧ accessor.name = relation.name ∧
      relation.through = some through ∧ lookup.column = relation.foreignKey ∧
      column = joinColumn join target := by
  obtain ⟨target, association, -, hassociates, rfl⟩ := resolve_eq_ok.1 h
  obtain rfl : association = .joined through lookup column targetColumn := hjoined
  obtain ⟨hjoinOf, join, hjoin, hlookup, -, -, hcolumn, -⟩ := associates_joined_iff.1 hassociates
  obtain ⟨-, dataType, -, rfl⟩ := keyLookup_eq_ok.1 hlookup
  exact ⟨join, target, hjoin, rfl, rfl, (joinOf_eq_some_iff.1 hjoinOf).2, rfl, hcolumn⟩

end Accessor

open Accessor

/-- A joined accessor finds its target by another column than its owner exactly when the foreign key does
not itself lead to the target. Where the foreign key references the target, as it does when an entity is
related to itself, another reference has to stand before it. -/
theorem join_column_differs_iff {schema : Schema} {resolved : List ResolvedEntity}
    (h : schema.resolve = .ok resolved) {result : ResolvedEntity} (hresult : result ∈ resolved)
    {accessor : Accessor} (haccessor : accessor ∈ result.accessors) {through : String}
    {lookup : KeyLookup} {column targetColumn : String}
    (hjoined : accessor.association = .joined through lookup column targetColumn) :
    ∃ join, schema.entity? through = some join ∧
      (∃ relation ∈ result.entity.relations, relation.name = accessor.name ∧
        relation.foreignKey = lookup.column) ∧
      (column ≠ lookup.column ↔ ¬ LeadsTo join accessor.target lookup.column) ∧
      ∀ before field after, join.fields = before ++ field :: after →
        field.name = lookup.column → (∀ f ∈ before, f.name ≠ lookup.column) →
        field.references = some accessor.target →
        (column ≠ lookup.column ↔ ∃ f ∈ before, f.references = some accessor.target) := by
  obtain ⟨-, relation, hrelation, hresolve⟩ := Schema.mem_accessors h hresult haccessor
  obtain ⟨join, target, hjoin, htarget, hname, -, hkey, rfl⟩ := joined_of_resolve hresolve hjoined
  have hiff := joinColumn_eq_iff join target lookup.column
  rw [← htarget] at hiff
  refine ⟨join, hjoin, ⟨relation, hrelation, hname.symm, hkey.symm⟩, not_congr hiff, ?_⟩
  intro before field after hfields hfieldName hbefore href
  rw [ne_eq, hiff, leadsTo_iff_of_references hfields hfieldName href hbefore]
  simp only [ne_eq, not_forall, Classical.not_not, exists_prop]

/-- People and the friendships between them, each made by one person and accepted by another. Both columns
of a friendship reference a person. -/
def people : Schema where
  entities := [
    { name := "Person"
      tableName := "people"
      fields := [⟨"id", .integer, true, true, false, none, none, none, none⟩]
      indexes := []
      relations := [
        ⟨.hasMany, "Person", "accepted", "maker_id", none, none, some "Friendship"⟩,
        ⟨.belongsToMany, "Person", "made", "friend_id", none, none, some "Friendship"⟩] },
    { name := "Friendship"
      tableName := "friendships"
      fields := [
        ⟨"maker_id", .integer, true, false, false, none, none, none, some "Person"⟩,
        ⟨"friend_id", .integer, true, false, false, none, none, none, some "Person"⟩]
      indexes := []
      relations := [] }]
  api := .standard

def people.resolved : List ResolvedEntity := [
  { entity := people.entities[0]
    accessors := [
      ⟨.hasMany, "accepted", "Person",
        .joined "Friendship" ⟨"Friendship", "maker_id", "id", .integer⟩ "maker_id" "id"⟩,
      ⟨.belongsToMany, "made", "Person",
        .joined "Friendship" ⟨"Friendship", "friend_id", "id", .integer⟩ "maker_id" "id"⟩] },
  { entity := people.entities[1], accessors := [] }]

theorem people_resolve : people.resolve = .ok people.resolved := by
  decide

/-- From the friend who accepted, the way leads to the person who made the friendship. -/
theorem join_column_differs_for_friends :
    people.resolve = .ok people.resolved ∧
      ∃ join, people.entity? "Friendship" = some join ∧
        ("maker_id" ≠ "friend_id" ↔ ¬ LeadsTo join "Person" "friend_id") := by
  refine ⟨people_resolve, ?_⟩
  have hresult : people.resolved[0] ∈ people.resolved := by decide
  have haccessor : people.resolved[0].accessors[1] ∈ people.resolved[0].accessors := by decide
  obtain ⟨join, hjoin, -, hiff, -⟩ :=
    join_column_differs_iff people_resolve hresult haccessor rfl
  exact ⟨join, hjoin, hiff⟩

/-- From the maker the way leads back to the maker: both columns are the same. -/
theorem join_column_repeats_foreign_key :
    people.resolve = .ok people.resolved ∧
      ∃ result ∈ people.resolved, ∃ accessor ∈ result.accessors,
        ∃ through lookup column targetColumn,
          accessor.association = .joined through lookup column targetColumn ∧
            column = lookup.column :=
  ⟨people_resolve, people.resolved[0], by decide, people.resolved[0].accessors[0], by decide,
    _, _, _, _, rfl, rfl⟩

end EntityForge
