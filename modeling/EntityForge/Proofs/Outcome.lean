import EntityForge.Proofs.Rules

/-!
What comes of the relations of a schema that is loaded.

A relation is resolved by making one check after the other, and so it is refused for the first column of
its route that is missing; a schema is refused for the first relation that is. Main statements:
`Accessor.resolve_eq_ok_iff` and `Accessor.resolve_eq_error_iff` for one relation, and
`resolve_follows_rules`.
-/

namespace EntityForge

namespace Accessor

variable {schema : Schema} {owner target join : Entity} {relation : Relation}

/-- What is said of a column that is asked for, if it is not there. -/
def lack (owner target : Entity) (column : Entity × String) : List ResolveError :=
  refusal (requireColumn owner.name target.name column.1 column.2)

theorem lack_eq_nil_iff {column : Entity × String} (hnames : (column.1.fields.map Field.name).Nodup) :
    lack owner target column = [] ↔ ∃ type, column.1.HasColumn column.2 type := by
  simp only [← Entity.columnType?_eq_some_iff hnames]
  unfold lack requireColumn
  cases column.1.columnType? column.2 <;> simp [refusal]

theorem head?_lack_eq_some_iff {column : Entity × String}
    (hnames : (column.1.fields.map Field.name).Nodup) {e : ResolveError} :
    (lack owner target column).head? = some e ↔ (¬∃ type, column.1.HasColumn column.2 type) ∧
      e = .unknownKey owner.name target.name column.1.name column.2 := by
  simp only [← Entity.columnType?_eq_some_iff hnames]
  unfold lack requireColumn
  cases column.1.columnType? column.2 <;> simp [refusal, eq_comm]

theorem reports_keyLookup (owner target queried : Entity) (column parentKey : String) :
    Reports (keyLookup owner target.name queried column parentKey)
      (lack owner target (owner, parentKey) ++ lack owner target (queried, column)) :=
  (Reports.refusal _).bind fun _ _ => (Reports.refusal _).map fun dataType =>
    KeyLookup.mk queried.name column parentKey dataType

/-- A look-up asks for the columns of its route, one after the other. -/
theorem reports_direct (owner target : Entity) (relation : Relation) :
    Reports (direct owner target relation)
      (((routeBy owner target relation none).columns owner target).flatMap (lack owner target)) := by
  have hlookup := reports_keyLookup owner target target (directKeys owner target relation).1
    (directKeys owner target relation).2
  have hdirect := hlookup.map Association.direct
  simpa [direct, routeBy, Route.columns] using hdirect

theorem reports_joined (owner target join : Entity) (relation : Relation) :
    Reports (joined owner target join relation)
      (((routeBy owner target relation (some join)).columns owner target).flatMap
        (lack owner target)) := by
  have hlookup := reports_keyLookup owner target join relation.foreignKey
    (joinedKeys owner target relation).1
  have hjoined := hlookup.bind fun lookup _ =>
    (Reports.refusal (requireColumn owner.name target.name join (joinColumn join target))).bind
      fun _ _ => (Reports.refusal (requireColumn owner.name target.name target
        (joinedKeys owner target relation).2)).map fun _ =>
          Association.joined join.name lookup (joinColumn join target) (joinedKeys owner target relation).2
  simpa [joined, routeBy, Route.columns, lack] using hjoined

/-- The columns of a route that are there, and the association that is then made of them. -/
theorem direct_eq_ok_iff (howner : (owner.fields.map Field.name).Nodup)
    (htarget : (target.fields.map Field.name).Nodup) {association : Association} :
    direct owner target relation = .ok association ↔
      (∀ column ∈ (routeBy owner target relation none).columns owner target,
        ∃ type, column.1.HasColumn column.2 type) ∧
      (routeBy owner target relation none).Describes target association := by
  simp only [direct_eq_ok, keyLookup_eq_ok, Entity.columnType?_eq_some_iff howner,
    Entity.columnType?_eq_some_iff htarget, routeBy, Route.columns, List.forall_mem_cons,
    List.not_mem_nil, false_implies, implies_true, and_true]
  constructor
  · rintro ⟨lookup, ⟨hparent, type, hcolumn, rfl⟩, rfl⟩
    exact ⟨⟨hparent, type, hcolumn⟩, .direct hcolumn⟩
  · rintro ⟨⟨hparent, -⟩, ⟨hcolumn⟩⟩
    exact ⟨_, ⟨hparent, _, hcolumn, rfl⟩, rfl⟩

theorem joined_eq_ok_iff (howner : (owner.fields.map Field.name).Nodup)
    (htarget : (target.fields.map Field.name).Nodup) (hjoin : (join.fields.map Field.name).Nodup)
    {association : Association} :
    joined owner target join relation = .ok association ↔
      (∀ column ∈ (routeBy owner target relation (some join)).columns owner target,
        ∃ type, column.1.HasColumn column.2 type) ∧
      (routeBy owner target relation (some join)).Describes target association := by
  simp only [joined_eq_ok, keyLookup_eq_ok, Entity.columnType?_eq_some_iff howner,
    Entity.columnType?_eq_some_iff htarget, Entity.columnType?_eq_some_iff hjoin, routeBy,
    Route.columns, List.forall_mem_cons, List.not_mem_nil, false_implies, implies_true, and_true]
  constructor
  · rintro ⟨lookup, ⟨hparent, type, hcolumn, rfl⟩, hother, hlast, rfl⟩
    exact ⟨⟨hparent, ⟨type, hcolumn⟩, hother, hlast⟩, .joined hcolumn⟩
  · rintro ⟨⟨hparent, -, hother, hlast⟩, ⟨⟩ | ⟨hcolumn⟩⟩
    exact ⟨_, ⟨hparent, _, hcolumn, rfl⟩, hother, hlast, rfl⟩

theorem resolve_of_missing_target (hfound : schema.entity? relation.target = none) :
    resolve schema owner relation =
      .error (.unknownEntity owner.name relation.target relation.target) := by
  simp [resolve, requireEntity, hfound, bind, Except.bind]

theorem resolve_of_missing_join (hfound : schema.entity? relation.target = some target)
    {through : String} (hjoin : joinOf relation = some through)
    (hthrough : schema.entity? through = none) :
    resolve schema owner relation = .error (.unknownEntity owner.name relation.target through) := by
  simp [resolve, requireEntity, hfound, hjoin, hthrough, bind, Except.bind]

theorem resolve_by_direct (hfound : schema.entity? relation.target = some target)
    (hjoin : joinOf relation = none) :
    resolve schema owner relation = (direct owner target relation >>=
      fun association => pure ⟨relation.kind, relation.name, target.name, association⟩) := by
  simp [resolve, requireEntity, hfound, hjoin, bind, Except.bind]

theorem resolve_by_joined (hfound : schema.entity? relation.target = some target) {through : String}
    (hjoin : joinOf relation = some through) (hthrough : schema.entity? through = some join) :
    resolve schema owner relation = (joined owner target join relation >>=
      fun association => pure ⟨relation.kind, relation.name, target.name, association⟩) := by
  simp [resolve, requireEntity, hfound, hjoin, hthrough, bind, Except.bind]

section Loaded

variable (hschema : schema.WellFormed) (howner : owner ∈ schema.entities)
include hschema howner

/-- Owner and target are associated by a route that the rules leave and whose columns are there. -/
theorem associates_iff (htarget : target ∈ schema.entities) {association : Association} :
    Associates schema owner target relation association ↔
      ∃ route, relation.Rule schema owner target route ∧
        (∀ column ∈ route.columns owner target, ∃ type, column.1.HasColumn column.2 type) ∧
        route.Describes target association := by
  have hnames {entity : Entity} (hmem : entity ∈ schema.entities) :=
    (hschema.entities entity hmem).fields
  unfold Associates
  cases hjoin : joinOf relation with
  | none =>
    simp only [rule_direct_iff hschema howner htarget hjoin, exists_eq_left]
    exact direct_eq_ok_iff (hnames howner) (hnames htarget)
  | some through =>
    simp only [rule_joined_iff hschema howner htarget hjoin]
    constructor
    · rintro ⟨join, hthrough, hjoined⟩
      have hmem := (hschema.entity?_eq_some_iff.1 hthrough).1
      rw [joined_eq_ok_iff (hnames howner) (hnames htarget) (hnames hmem)] at hjoined
      exact ⟨_, ⟨join, hthrough, rfl⟩, hjoined⟩
    · rintro ⟨route, ⟨join, hthrough, rfl⟩, hroute⟩
      have hmem := (hschema.entity?_eq_some_iff.1 hthrough).1
      rw [← joined_eq_ok_iff (hnames howner) (hnames htarget) (hnames hmem)] at hroute
      exact ⟨join, hthrough, hroute⟩

/-- A relation resolves to an accessor exactly by the rules. -/
theorem resolve_eq_ok_iff {accessor : Accessor} :
    resolve schema owner relation = .ok accessor ↔ relation.ResolvesTo schema owner accessor := by
  rw [resolve_eq_ok]
  constructor
  · rintro ⟨target, association, hfound, hassociates, rfl⟩
    obtain ⟨htarget, hname⟩ := hschema.entity?_eq_some_iff.1 hfound
    obtain ⟨route, hrule, hroute⟩ := (associates_iff hschema howner htarget).1 hassociates
    rw [hname]
    exact ⟨target, route, association, ⟨htarget, hname, hrule⟩, hroute.1, hroute.2, rfl⟩
  · rintro ⟨target, route, association, ⟨htarget, hname, hrule⟩, hcolumns, hdescribes, rfl⟩
    refine ⟨target, association, hschema.entity?_eq_some_iff.2 ⟨htarget, hname⟩, ?_, by rw [hname]⟩
    exact (associates_iff hschema howner htarget).2 ⟨route, hrule, hcolumns, hdescribes⟩

omit howner in
/-- Where all entities are there and so the route is known, an obstacle is the first column of it that is
not there. -/
theorem obstacle_iff_of_route (hfound : schema.entity? relation.target = some target)
    (hthrough : ∀ through, relation.kind.isMany = true → relation.through = some through →
      through ∈ schema.entities.map Entity.name)
    {known : Route} (hrule : ∀ route, relation.Rule schema owner target route ↔ route = known)
    (hcolumns : ∀ column ∈ known.columns owner target, column.1 ∈ schema.entities) {e : ResolveError} :
    relation.Obstacle schema owner e ↔
      ((known.columns owner target).flatMap (lack owner target)).head? = some e := by
  obtain ⟨htarget, hname⟩ := hschema.entity?_eq_some_iff.1 hfound
  have hnames {column : Entity × String} (hmem : column ∈ known.columns owner target) :=
    (hschema.entities _ (hcolumns column hmem)).fields
  rw [head?_problems_eq_some_iff]
  constructor
  · rintro (hmissing | ⟨-, hmany, hsome, hmissing⟩ |
      ⟨⟨hother, hotherName, hroute⟩, hsplit, hbefore, hmissing⟩)
    · exact absurd (List.mem_map.2 ⟨target, htarget, hname⟩) hmissing
    · exact absurd (hthrough _ hmany hsome) hmissing
    · obtain rfl := List.inj_on_of_nodup_map hschema.names hother htarget (hotherName.trans hname.symm)
      obtain rfl := (hrule _).1 hroute
      refine ⟨_, _, _, hsplit, ?_, ?_⟩
      · rw [head?_lack_eq_some_iff (hnames (by simp [hsplit])), hname]
        exact ⟨hmissing, rfl⟩
      · intro earlier hearlier
        exact (lack_eq_nil_iff (hnames (by simp [hsplit, hearlier]))).2 (hbefore earlier hearlier)
  · rintro ⟨before, ⟨entity, column⟩, after, hsplit, hlack, hbefore⟩
    obtain ⟨hmissing, rfl⟩ := (head?_lack_eq_some_iff (hnames (by simp [hsplit]))).1 hlack
    rw [hname]
    refine .column ⟨htarget, hname, (hrule known).2 rfl⟩ hsplit ?_ hmissing
    intro earlier hearlier
    exact (lack_eq_nil_iff (hnames (by simp [hsplit, hearlier]))).1 (hbefore earlier hearlier)

omit hschema howner in
theorem obstacle_iff_of_missing_target (hmissing : relation.target ∉ schema.entities.map Entity.name)
    {e : ResolveError} : relation.Obstacle schema owner e ↔
      e = .unknownEntity owner.name relation.target relation.target := by
  constructor
  · rintro (_ | ⟨hloaded, -, -, -⟩ | ⟨⟨hmem, hname, -⟩, -, -, -⟩)
    · rfl
    · exact absurd hloaded hmissing
    · exact absurd (List.mem_map.2 ⟨_, hmem, hname⟩) hmissing
  · rintro rfl
    exact .target hmissing

theorem obstacle_iff_of_missing_join (hloaded : relation.target ∈ schema.entities.map Entity.name)
    {through : String} (hjoin : joinOf relation = some through)
    (hmissing : schema.entity? through = none) {e : ResolveError} :
    relation.Obstacle schema owner e ↔ e = .unknownEntity owner.name relation.target through := by
  obtain ⟨hmany, hthrough⟩ := joinOf_eq_some_iff.1 hjoin
  constructor
  · rintro (htarget | ⟨-, -, hsome, -⟩ | ⟨⟨hmem, -, hrule⟩, -, -, -⟩)
    · exact absurd hloaded htarget
    · rw [Option.some.inj (hthrough.symm.trans hsome)]
    · -- a route through the join entity needs it to be there
      obtain ⟨join, hfound, -⟩ := (rule_joined_iff hschema howner hmem hjoin).1 hrule
      rw [hmissing] at hfound
      cases hfound
  · rintro rfl
    exact .join hloaded hmany hthrough (Schema.entity?_eq_none_iff.1 hmissing)

theorem direct_eq_error_iff (hfound : schema.entity? relation.target = some target)
    (hjoin : joinOf relation = none) {e : ResolveError} :
    resolve schema owner relation = .error e ↔ relation.Obstacle schema owner e := by
  obtain ⟨htarget, -⟩ := hschema.entity?_eq_some_iff.1 hfound
  have hthrough (through : String) (hmany : relation.kind.isMany = true)
      (hsome : relation.through = some through) : through ∈ schema.entities.map Entity.name := by
    rw [joinOf_eq_some_iff.2 ⟨hmany, hsome⟩] at hjoin
    cases hjoin
  have hcolumns : ∀ column ∈ (routeBy owner target relation none).columns owner target,
      column.1 ∈ schema.entities := by
    simp [routeBy, Route.columns, howner, htarget]
  rw [resolve_by_direct hfound hjoin, ((reports_direct owner target relation).map _).eq_error_iff,
    obstacle_iff_of_route hschema hfound hthrough
      (fun _ => rule_direct_iff hschema howner htarget hjoin) hcolumns]

theorem joined_eq_error_iff (hfound : schema.entity? relation.target = some target)
    {through : String} (hjoin : joinOf relation = some through)
    (hthrough : schema.entity? through = some join) {e : ResolveError} :
    resolve schema owner relation = .error e ↔ relation.Obstacle schema owner e := by
  obtain ⟨htarget, -⟩ := hschema.entity?_eq_some_iff.1 hfound
  obtain ⟨hmem, hjoinName⟩ := hschema.entity?_eq_some_iff.1 hthrough
  have hpresent (other : String) (_ : relation.kind.isMany = true)
      (hother : relation.through = some other) : other ∈ schema.entities.map Entity.name := by
    obtain rfl := Option.some.inj ((joinOf_eq_some_iff.1 hjoin).2.symm.trans hother)
    exact List.mem_map.2 ⟨join, hmem, hjoinName⟩
  have hrule (route : Route) : relation.Rule schema owner target route ↔
      route = routeBy owner target relation (some join) := by
    rw [rule_joined_iff hschema howner htarget hjoin, hthrough]
    simp
  have hcolumns : ∀ column ∈ (routeBy owner target relation (some join)).columns owner target,
      column.1 ∈ schema.entities := by
    simp [routeBy, Route.columns, howner, htarget, hmem]
  rw [resolve_by_joined hfound hjoin hthrough,
    ((reports_joined owner target join relation).map _).eq_error_iff,
    obstacle_iff_of_route hschema hfound hpresent hrule hcolumns]

/-- A relation is refused exactly for the first thing that is not there. -/
theorem resolve_eq_error_iff {e : ResolveError} :
    resolve schema owner relation = .error e ↔ relation.Obstacle schema owner e := by
  cases hfound : schema.entity? relation.target with
  | none =>
    rw [resolve_of_missing_target hfound, Except.error.injEq, eq_comm,
      obstacle_iff_of_missing_target (Schema.entity?_eq_none_iff.1 hfound)]
  | some target =>
    cases hjoin : joinOf relation with
    | none => exact direct_eq_error_iff hschema howner hfound hjoin
    | some through =>
      cases hthrough : schema.entity? through with
      | none =>
        have hloaded : relation.target ∈ schema.entities.map Entity.name :=
          List.mem_map.2 ⟨target, hschema.entity?_eq_some_iff.1 hfound⟩
        rw [resolve_of_missing_join hfound hjoin hthrough, Except.error.injEq, eq_comm,
          obstacle_iff_of_missing_join hschema howner hloaded hjoin hthrough]
      | some join => exact joined_eq_error_iff hschema howner hfound hjoin hthrough

end Loaded

end Accessor

namespace Schema

variable {doc : Document} {schema : Schema}

/-- The relations with the entities that they are declared on, in the order of declaration. -/
def declared (schema : Schema) : List (Entity × Relation) :=
  schema.entities.flatMap fun owner => owner.relations.map (owner, ·)

theorem mem_declared {schema : Schema} {owner : Entity} {relation : Relation} :
    (owner, relation) ∈ schema.declared ↔ owner ∈ schema.entities ∧ relation ∈ owner.relations := by
  simp [declared]

/-- The relations are gone through in the order of declaration. -/
theorem reports_resolve (schema : Schema) :
    Reports schema.resolve
      (schema.declared.flatMap fun pair => refusal (Accessor.resolve schema pair.1 pair.2)) := by
  have howner (owner : Entity) :
      Reports (do return (⟨owner, ← owner.relations.mapM (Accessor.resolve schema owner)⟩ :
        ResolvedEntity))
        (owner.relations.flatMap fun relation => refusal (Accessor.resolve schema owner relation)) :=
    (Reports.mapM fun relation _ => Reports.refusal _).map _
  have hall := Reports.mapM fun owner (_ : owner ∈ schema.entities) => howner owner
  rw [declared, List.flatMap_assoc]
  simpa only [List.flatMap_map, resolve] using hall

/-- A schema is refused for the first of its relations that asks for something that is not there. -/
theorem resolve_eq_error_iff (hwell : schema.WellFormed) {e : ResolveError} :
    schema.resolve = .error e ↔ ∃ before owner relation after,
      schema.declared = before ++ (owner, relation) :: after ∧ relation.Obstacle schema owner e ∧
        ∀ earlier ∈ before, ¬earlier.2.Unmet schema earlier.1 := by
  have hrefused {pair : Entity × Relation} (hpair : pair ∈ schema.declared) {e : ResolveError} :
      (refusal (Accessor.resolve schema pair.1 pair.2)).head? = some e ↔
        pair.2.Obstacle schema pair.1 e := by
    rw [← (Reports.refusal _).eq_error_iff]
    exact Accessor.resolve_eq_error_iff hwell (mem_declared.1 hpair).1
  have hpassed {pair : Entity × Relation} (hpair : pair ∈ schema.declared) :
      refusal (Accessor.resolve schema pair.1 pair.2) = [] ↔ ¬pair.2.Unmet schema pair.1 := by
    simp only [refusal_eq_nil_iff, Accessor.resolve_eq_error_iff hwell (mem_declared.1 hpair).1,
      Relation.exists_obstacle_iff]
  rw [schema.reports_resolve.eq_error_iff, head?_problems_eq_some_iff]
  constructor
  · rintro ⟨before, ⟨owner, relation⟩, after, hsplit, hfirst, hbefore⟩
    refine ⟨before, owner, relation, after, hsplit, (hrefused (by simp [hsplit])).1 hfirst, ?_⟩
    intro earlier hearlier
    exact (hpassed (by simp [hsplit, hearlier])).1 (hbefore earlier hearlier)
  · rintro ⟨before, owner, relation, after, hsplit, hfirst, hbefore⟩
    refine ⟨before, (owner, relation), after, hsplit, (hrefused (by simp [hsplit])).2 hfirst, ?_⟩
    intro earlier hearlier
    exact (hpassed (by simp [hsplit, hearlier])).2 (hbefore earlier hearlier)

theorem exists_resolve_error_iff (hwell : schema.WellFormed) :
    (∃ e, schema.resolve = .error e) ↔
      ∃ owner ∈ schema.entities, ∃ relation ∈ owner.relations, relation.Unmet schema owner := by
  simp only [resolve_eq_error_iff hwell]
  constructor
  · rintro ⟨e, before, owner, relation, after, hsplit, hobstacle, -⟩
    obtain ⟨howner, hrelation⟩ := mem_declared.1 (hsplit ▸ List.mem_append_cons_self)
    exact ⟨owner, howner, relation, hrelation, Relation.exists_obstacle_iff.1 ⟨e, hobstacle⟩⟩
  · rintro ⟨owner, howner, relation, hrelation, hunmet⟩
    obtain ⟨before, ⟨first, refused⟩, after, hsplit, hbefore, hfirst⟩ :=
      exists_first (p := fun pair => ¬pair.2.Unmet schema pair.1) (mem_declared.2 ⟨howner, hrelation⟩)
        (not_not_intro hunmet)
    obtain ⟨e, hobstacle⟩ := Relation.exists_obstacle_iff.2 (not_not.1 hfirst)
    exact ⟨e, before, first, refused, after, hsplit, hobstacle, hbefore⟩

/-- A schema that resolves gives each entity one accessor for each of its relations, by the rules. -/
theorem resolve_eq_ok_iff_follows (hwell : schema.WellFormed) {resolved : List ResolvedEntity} :
    schema.resolve = .ok resolved ↔ List.Forall₂ (fun entity result => result.entity = entity ∧
      List.Forall₂ (fun relation accessor => relation.ResolvesTo schema entity accessor)
        entity.relations result.accessors) schema.entities resolved := by
  rw [resolve_eq_ok]
  refine forall₂_iff_of_mem fun owner howner result => ?_
  simp only [Accessor.resolve_eq_ok_iff hwell howner]

end Schema

/-- A schema that is loaded resolves unless one of its relations asks for something that is not there, and
it is refused for the first such relation. Where it resolves, each entity has one accessor for each of its
relations, in their order and by the rules. -/
theorem resolve_follows_rules {doc : Document} (hkeyed : doc.Keyed) {schema : Schema}
    (hload : Schema.load doc = .ok schema) :
    ((∃ e, schema.resolve = .error e) ↔
      ∃ owner ∈ schema.entities, ∃ relation ∈ owner.relations, relation.Unmet schema owner) ∧
    (∀ e, schema.resolve = .error e ↔ ∃ before owner relation after,
      schema.declared = before ++ (owner, relation) :: after ∧ relation.Obstacle schema owner e ∧
        ∀ earlier ∈ before, ¬earlier.2.Unmet schema earlier.1) ∧
    (∀ resolved, schema.resolve = .ok resolved ↔
      List.Forall₂ (fun entity result => result.entity = entity ∧
        List.Forall₂ (fun relation accessor => relation.ResolvesTo schema entity accessor)
          entity.relations result.accessors) schema.entities resolved) ∧
    ∀ owner relation accessor, Relation.ResolvesTo schema owner relation accessor →
      ((∃ through lookup joinColumn targetColumn,
        accessor.association = .joined through lookup joinColumn targetColumn) ↔
        relation.kind.isMany = true ∧ ∃ through, relation.through = some through) := by
  have hwell := Schema.wellFormed_of_load hkeyed hload
  exact ⟨Schema.exists_resolve_error_iff hwell, fun _ => Schema.resolve_eq_error_iff hwell,
    fun _ => Schema.resolve_eq_ok_iff_follows hwell, fun _ _ _ h => h.joined_iff⟩

/-- The people without their friendships, which the relations still go through. -/
def people.alone : Document :=
  { people.document with models := people.document.models.map fun models => models.take 1 }

theorem resolve_follows_rules_for_people :
    people.document.Keyed ∧ Schema.load people.document = .ok people ∧
      (∀ owner ∈ people.entities, ∀ relation ∈ owner.relations, ¬relation.Unmet people owner) ∧
      people.alone.Keyed ∧ ∃ schema, Schema.load people.alone = .ok schema ∧
        schema.resolve = .error (.unknownEntity "Person" "Person" "Friendship") := by
  obtain ⟨hfails, -⟩ := resolve_follows_rules people_keyed people_load
  have hmet : ∀ owner ∈ people.entities, ∀ relation ∈ owner.relations,
      ¬relation.Unmet people owner := by
    intro owner howner relation hrelation hunmet
    obtain ⟨e, herror⟩ := hfails.2 ⟨owner, howner, relation, hrelation, hunmet⟩
    rw [people_resolve] at herror
    cases herror
  have hkeyedAlone : people.alone.Keyed := ⟨by decide, by decide⟩
  have hloadAlone : Schema.load people.alone =
      .ok { people with entities := people.entities.take 1 } := by decide
  obtain ⟨-, hfirst, -⟩ := resolve_follows_rules hkeyedAlone hloadAlone
  refine ⟨people_keyed, people_load, hmet, hkeyedAlone, _, hloadAlone, ?_⟩
  rw [hfirst]
  -- the very first relation is the one that is refused
  refine ⟨[], people.entities[0], people.entities[0].relations[0], _, rfl, ?_, ?_⟩
  · exact .join (by decide) rfl rfl (by decide)
  · intro earlier hearlier
    cases hearlier

end EntityForge
