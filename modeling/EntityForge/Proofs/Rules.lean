import EntityForge.Proofs.WellFormed

/-!
The rules by which relations are resolved, on declarations alone.

A relation asks for entities, and by a rule for its kind for a route of columns from its owner to its
target. Where all of that is there it has an accessor, and otherwise an obstacle: the first thing that is
missing. Resolution goes by look-ups and not by these rules, but the look-ups leave it the same route. Main
statements: `Accessor.rule_direct_iff` and `Accessor.rule_joined_iff`, and `Relation.exists_obstacle_iff`.
-/

namespace EntityForge

/-- The key that a relation names on an entity, or the primary key where it names none. -/
inductive Entity.KeyFor (entity : Entity) : Option String → String → Prop
  | named (key : String) : KeyFor entity (some key) key
  | primary {field : Field} : field ∈ entity.fields → field.primaryKey = true →
      KeyFor entity none field.name
  | implicit : (∀ field ∈ entity.fields, field.primaryKey = false) → KeyFor entity none implicitKey

/-- What leads from a row of an owner to the related rows. -/
inductive Route where
  /-- The `parentKey` of the owner equals the `column` of the target. -/
  | direct (parentKey column : String)
  /-- The `parentKey` of the owner equals the `column` of a join row, and its `joinColumn` equals the
  `targetColumn` of the target. -/
  | joined (join : Entity) (parentKey column joinColumn targetColumn : String)

namespace Route

/-- The columns of a route, each with the entity that it belongs to, in the order in which they are asked
for. -/
def columns (owner target : Entity) : Route → List (Entity × String)
  | .direct parentKey column => [(owner, parentKey), (target, column)]
  | .joined join parentKey column joinColumn targetColumn =>
    [(owner, parentKey), (join, column), (join, joinColumn), (target, targetColumn)]

/-- The association by a route. Its key has the type of the column that is looked up. -/
inductive Describes (target : Entity) : Route → Association → Prop
  | direct {parentKey column : String} {type : DataType} : target.HasColumn column type →
      Describes target (.direct parentKey column) (.direct ⟨target.name, column, parentKey, type⟩)
  | joined {join : Entity} {parentKey column joinColumn targetColumn : String} {type : DataType} :
      join.HasColumn column type →
      Describes target (.joined join parentKey column joinColumn targetColumn)
        (.joined join.name ⟨join.name, column, parentKey, type⟩ joinColumn targetColumn)

end Route

namespace Relation

variable (schema : Schema) (owner : Entity) (relation : Relation)

/-- The rules of look-up. The foreign key is a column of the target, of the owner, or of the join entity
that a relation to many goes through; the key on the other side may be named by the relation. -/
inductive Rule (target : Entity) : Route → Prop
  | has {key : String} :
      relation.kind = .hasOne ∨ relation.kind = .hasMany ∧ relation.through = none →
      owner.KeyFor relation.sourceKey key →
      Rule target (.direct key relation.foreignKey)
  | belongs {key : String} :
      relation.kind = .belongsToOne ∨ relation.kind = .belongsToMany ∧ relation.through = none →
      target.KeyFor relation.targetKey key →
      Rule target (.direct relation.foreignKey key)
  | hasThrough {join : Entity} {key other last : String} :
      relation.kind = .hasMany → join ∈ schema.entities → relation.through = some join.name →
      owner.KeyFor relation.sourceKey key → Accessor.LeadsTo join target.name other →
      target.KeyFor none last →
      Rule target (.joined join key relation.foreignKey other last)
  | belongsThrough {join : Entity} {key other last : String} :
      relation.kind = .belongsToMany → join ∈ schema.entities → relation.through = some join.name →
      owner.KeyFor none key → Accessor.LeadsTo join target.name other →
      target.KeyFor relation.targetKey last →
      Rule target (.joined join key relation.foreignKey other last)

/-- A target of the relation that is there, and a route to it by the rules. -/
structure Follows (target : Entity) (route : Route) : Prop where
  loaded : target ∈ schema.entities
  isTarget : target.name = relation.target
  rule : relation.Rule schema owner target route

/-- Something that the relation asks for is not there: its target, the join entity it goes through, or a
column. -/
def Unmet : Prop :=
  relation.target ∉ schema.entities.map Entity.name ∨
    (relation.kind.isMany = true ∧ ∃ through, relation.through = some through ∧
      through ∉ schema.entities.map Entity.name) ∨
    ∃ target route, relation.Follows schema owner target route ∧
      ∃ column ∈ route.columns owner target, ¬∃ type, column.1.HasColumn column.2 type

/-- The first thing that the relation asks for and that is not there. -/
inductive Obstacle : ResolveError → Prop
  | target : relation.target ∉ schema.entities.map Entity.name →
      Obstacle (.unknownEntity owner.name relation.target relation.target)
  | join {through : String} : relation.target ∈ schema.entities.map Entity.name →
      relation.kind.isMany = true → relation.through = some through →
      through ∉ schema.entities.map Entity.name →
      Obstacle (.unknownEntity owner.name relation.target through)
  | column {target entity : Entity} {route : Route} {before after : List (Entity × String)}
      {column : String} : relation.Follows schema owner target route →
      route.columns owner target = before ++ (entity, column) :: after →
      (∀ earlier ∈ before, ∃ type, earlier.1.HasColumn earlier.2 type) →
      (¬∃ type, entity.HasColumn column type) →
      Obstacle (.unknownKey owner.name relation.target entity.name column)

/-- Everything that the relation asks for is there, and the accessor is made of it. -/
def ResolvesTo (accessor : Accessor) : Prop :=
  ∃ target route association, relation.Follows schema owner target route ∧
    (∀ column ∈ route.columns owner target, ∃ type, column.1.HasColumn column.2 type) ∧
    route.Describes target association ∧
    accessor = ⟨relation.kind, relation.name, relation.target, association⟩

end Relation

theorem eq_of_countP_le_one {α : Type} {p : α → Bool} {values : List α} (h : values.countP p ≤ 1)
    {a b : α} (ha : a ∈ values) (hb : b ∈ values) (hpa : p a = true) (hpb : p b = true) : a = b := by
  rw [List.countP_eq_length_filter] at h
  have hmema : a ∈ values.filter p := List.mem_filter.2 ⟨ha, hpa⟩
  have hmemb : b ∈ values.filter p := List.mem_filter.2 ⟨hb, hpb⟩
  rcases hfilter : values.filter p with _ | ⟨first, _ | ⟨second, rest⟩⟩
  · rw [hfilter] at hmema
    cases hmema
  · rw [hfilter, List.mem_singleton] at hmema hmemb
    rw [hmema, hmemb]
  · rw [hfilter] at h
    simp at h

/-- Where something fails on a member, there is a first such member. -/
theorem exists_first {α : Type} {p : α → Prop} {values : List α} {value : α} (hmem : value ∈ values)
    (h : ¬p value) : ∃ before first after, values = before ++ first :: after ∧
      (∀ earlier ∈ before, p earlier) ∧ ¬p first := by
  classical
  have hsome : (values.find? fun value => ¬p value).isSome :=
    List.find?_isSome.2 ⟨value, hmem, by simpa using h⟩
  obtain ⟨first, hfirst⟩ := Option.isSome_iff_exists.1 hsome
  obtain ⟨hfails, before, after, hsplit, hbefore⟩ := List.find?_eq_some_iff_append.1 hfirst
  refine ⟨before, first, after, hsplit, ?_, by simpa using hfails⟩
  intro earlier hearlier
  simpa using hbefore earlier hearlier

/-- Out of some values that include one with a property, the last one that has it. -/
theorem exists_last {α : Type} {p : α → Prop} {values : List α} {value : α} (hmem : value ∈ values)
    (h : p value) : ∃ before last after, values = before ++ last :: after ∧ p last ∧
      ∀ later ∈ after, ¬p later := by
  obtain ⟨before, last, after, hsplit, hbefore, hlast⟩ :=
    exists_first (p := fun value => ¬p value) (List.mem_reverse.2 hmem) (not_not_intro h)
  refine ⟨after.reverse, last, before.reverse, ?_, not_not.1 hlast, ?_⟩
  · rw [← List.reverse_reverse values, hsplit]
    simp
  · intro later hlater
    exact hbefore later (List.mem_reverse.1 hlater)

namespace Relation

variable {schema : Schema} {owner : Entity} {relation : Relation}

/-- Something that a relation asks for is missing just where a first such thing is. -/
theorem exists_obstacle_iff :
    (∃ e, relation.Obstacle schema owner e) ↔ relation.Unmet schema owner := by
  constructor
  · rintro ⟨e, hmissing | ⟨-, hmany, hthrough, hmissing⟩ | ⟨hfollows, hsplit, -, hmissing⟩⟩
    · exact .inl hmissing
    · exact .inr (.inl ⟨hmany, _, hthrough, hmissing⟩)
    · exact .inr (.inr ⟨_, _, hfollows, _, hsplit ▸ List.mem_append_cons_self, hmissing⟩)
  · intro hunmet
    by_cases htarget : relation.target ∈ schema.entities.map Entity.name
    · rcases hunmet with hmissing | ⟨hmany, through, hthrough, hmissing⟩ |
        ⟨target, route, hfollows, column, hcolumn, hmissing⟩
      · exact absurd htarget hmissing
      · exact ⟨_, .join htarget hmany hthrough hmissing⟩
      · obtain ⟨before, first, after, hsplit, hbefore, hfirst⟩ :=
          exists_first (p := fun column => ∃ type, column.1.HasColumn column.2 type) hcolumn hmissing
        exact ⟨_, .column hfollows hsplit hbefore hfirst⟩
    · exact ⟨_, .target htarget⟩

/-- An accessor is of the kind of its relation, and goes through a join entity where the relation does. -/
theorem ResolvesTo.joined_iff {accessor : Accessor} (h : relation.ResolvesTo schema owner accessor) :
    (∃ through lookup joinColumn targetColumn,
      accessor.association = .joined through lookup joinColumn targetColumn) ↔
      relation.kind.isMany = true ∧ ∃ through, relation.through = some through := by
  obtain ⟨target, route, association, ⟨-, -, hrule⟩, -, hdescribes, rfl⟩ := h
  have hmany : relation.kind.isMany = true ↔ relation.kind = .hasMany ∨ relation.kind = .belongsToMany := by
    cases relation.kind <;> simp [RelationKind.isMany]
  rw [hmany]
  rcases hrule with ⟨hkind, -⟩ | ⟨hkind, -⟩ | ⟨hkind, -, hthrough, -, -, -⟩ |
    ⟨hkind, -, hthrough, -, -, -⟩
  · cases hdescribes
    rcases hkind with hkind | ⟨hkind, hnone⟩ <;> simp [*]
  · cases hdescribes
    rcases hkind with hkind | ⟨hkind, hnone⟩ <;> simp [*]
  · cases hdescribes
    simp [*]
  · cases hdescribes
    simp [*]

end Relation

namespace Entity

variable {entity : Entity}

/-- With no more than one primary key, the rule and the look-up have one and the same key in mind. -/
theorem keyFor_iff (hkey : entity.fields.countP Field.primaryKey ≤ 1) {named : Option String}
    {key : String} : entity.KeyFor named key ↔ key = named.getD entity.primaryKey := by
  cases named with
  | some name =>
    constructor
    · rintro ⟨⟩
      rfl
    · rintro rfl
      exact .named _
  | none =>
    rw [Option.getD_none]
    unfold primaryKey keyField?
    cases hfind : entity.fields.find? Field.primaryKey with
    | some field =>
      have hmem := List.mem_of_find?_eq_some hfind
      have hprimary : field.primaryKey = true := List.find?_some hfind
      constructor
      · rintro (_ | ⟨hother, hotherKey⟩ | hnone)
        · rw [eq_of_countP_le_one hkey hother hmem hotherKey hprimary]
        · rw [hnone field hmem] at hprimary
          cases hprimary
      · rintro rfl
        exact .primary hmem hprimary
    | none =>
      have hnone : ∀ field ∈ entity.fields, field.primaryKey = false := by
        simpa using List.find?_eq_none.1 hfind
      constructor
      · rintro (_ | ⟨hother, hotherKey⟩ | _)
        · rw [hnone _ hother] at hotherKey
          cases hotherKey
        · rfl
      · rintro rfl
        exact .implicit hnone

end Entity

namespace Schema

variable {schema : Schema}

theorem WellFormed.entity?_eq_some_iff (h : schema.WellFormed) {name : String} {entity : Entity} :
    schema.entity? name = some entity ↔ entity ∈ schema.entities ∧ entity.name = name :=
  find?_eq_some_iff_of_nodup h.names

theorem entity?_eq_none_iff {name : String} :
    schema.entity? name = none ↔ name ∉ schema.entities.map Entity.name := by
  rw [entity?, List.find?_eq_none]
  simp

theorem WellFormed.keyFor_iff (h : schema.WellFormed) {entity : Entity}
    (hentity : entity ∈ schema.entities) {named : Option String} {key : String} :
    entity.KeyFor named key ↔ key = named.getD entity.primaryKey :=
  Entity.keyFor_iff (h.entities entity hentity).key

end Schema

namespace Accessor

variable {schema : Schema} {owner target join : Entity} {relation : Relation} {route : Route}

/-- The route by which a relation is looked up. -/
def routeBy (owner target : Entity) (relation : Relation) : Option Entity → Route
  | none => .direct (directKeys owner target relation).2 (directKeys owner target relation).1
  | some join =>
    .joined join (joinedKeys owner target relation).1 relation.foreignKey (joinColumn join target)
      (joinedKeys owner target relation).2

/-- Without a join entity there is one rule for each kind, and the look-up follows it. -/
theorem rule_direct_iff (hschema : schema.WellFormed) (howner : owner ∈ schema.entities)
    (htarget : target ∈ schema.entities) (hjoin : joinOf relation = none) :
    relation.Rule schema owner target route ↔ route = routeBy owner target relation none := by
  unfold joinOf at hjoin
  constructor
  · rintro (⟨hkind, hkey⟩ | ⟨hkind, hkey⟩ | ⟨hkind, -, hthrough, -⟩ | ⟨hkind, -, hthrough, -⟩)
    · rw [hschema.keyFor_iff howner] at hkey
      rcases hkind with hkind | ⟨hkind, -⟩ <;> simp [routeBy, directKeys, hkind, hkey]
    · rw [hschema.keyFor_iff htarget] at hkey
      rcases hkind with hkind | ⟨hkind, -⟩ <;> simp [routeBy, directKeys, hkind, hkey]
    -- the other two rules are for relations that go through a join entity
    · simp [hkind, hthrough, RelationKind.isMany] at hjoin
    · simp [hkind, hthrough, RelationKind.isMany] at hjoin
  · rintro rfl
    unfold routeBy directKeys
    cases hkind : relation.kind with
    | hasOne => exact .has (.inl hkind) ((hschema.keyFor_iff howner).2 rfl)
    | hasMany =>
      have hthrough : relation.through = none := by simpa [hkind, RelationKind.isMany] using hjoin
      exact .has (.inr ⟨hkind, hthrough⟩) ((hschema.keyFor_iff howner).2 rfl)
    | belongsToOne => exact .belongs (.inl hkind) ((hschema.keyFor_iff htarget).2 rfl)
    | belongsToMany =>
      have hthrough : relation.through = none := by simpa [hkind, RelationKind.isMany] using hjoin
      exact .belongs (.inr ⟨hkind, hthrough⟩) ((hschema.keyFor_iff htarget).2 rfl)

/-- So it is with one, and then the join entity has to be there. -/
theorem rule_joined_iff (hschema : schema.WellFormed) (howner : owner ∈ schema.entities)
    (htarget : target ∈ schema.entities) {through : String} (hjoin : joinOf relation = some through) :
    relation.Rule schema owner target route ↔ ∃ join, schema.entity? through = some join ∧
      route = routeBy owner target relation (some join) := by
  obtain ⟨hmany, hthrough⟩ := joinOf_eq_some_iff.1 hjoin
  constructor
  · rintro (⟨hkind, -⟩ | ⟨hkind, -⟩ | ⟨hkind, hmem, hname, hkey, hother, hlast⟩ |
      ⟨hkind, hmem, hname, hkey, hother, hlast⟩)
    -- the first two rules are for relations that do not
    · rcases hkind with hkind | ⟨-, hnone⟩ <;> simp_all [RelationKind.isMany]
    · rcases hkind with hkind | ⟨-, hnone⟩ <;> simp_all [RelationKind.isMany]
    all_goals
      rw [hschema.keyFor_iff howner] at hkey
      rw [hschema.keyFor_iff htarget] at hlast
      rw [← joinColumn_eq_iff] at hother
      have hsame := Option.some.inj (hname.symm.trans hthrough)
      refine ⟨_, hschema.entity?_eq_some_iff.2 ⟨hmem, hsame⟩, ?_⟩
      simp [routeBy, joinedKeys, hkind, hkey, hother, hlast]
  · rintro ⟨join, hfound, rfl⟩
    obtain ⟨hmem, rfl⟩ := hschema.entity?_eq_some_iff.1 hfound
    have hother := (joinColumn_eq_iff join target _).1 rfl
    unfold routeBy joinedKeys
    cases hkind : relation.kind with
    | hasOne => simp [hkind, RelationKind.isMany] at hmany
    | hasMany =>
      exact .hasThrough hkind hmem hthrough ((hschema.keyFor_iff howner).2 rfl) hother
        ((hschema.keyFor_iff htarget).2 rfl)
    | belongsToOne => simp [hkind, RelationKind.isMany] at hmany
    | belongsToMany =>
      exact .belongsThrough hkind hmem hthrough ((hschema.keyFor_iff howner).2 rfl) hother
        ((hschema.keyFor_iff htarget).2 rfl)

end Accessor

end EntityForge
