import EntityForge.Proofs.JoinColumn
import EntityForge.Proofs.Loading

/-!
Every column that an accessor names is there.

An accessor names columns of up to three entities. What counts as a column is said here by the declaration
of an entity alone; where the names of its fields differ, that is what resolution goes by
(`columnType?_eq_some_iff`). Main statement: `sound_of_resolve`.
-/

namespace EntityForge

namespace Entity

variable {entity : Entity} {column : String} {type : DataType}

/-- A column with its type is a declared field, or the integer `id` of an entity that declares neither that
nor a primary key. -/
def HasColumn (entity : Entity) (column : String) (type : DataType) : Prop :=
  (∃ field ∈ entity.fields, field.name = column ∧ field.dataType = type) ∨
    column = implicitKey ∧ type = .integer ∧
      ∀ field ∈ entity.fields, field.primaryKey = false ∧ field.name ≠ implicitKey

theorem field?_eq_some_iff (hnames : (entity.fields.map Field.name).Nodup) {field : Field} :
    entity.field? column = some field ↔ field ∈ entity.fields ∧ field.name = column :=
  find?_eq_some_iff_of_nodup hnames

theorem mem_of_field? {field : Field} (h : entity.field? column = some field) :
    field ∈ entity.fields ∧ field.name = column :=
  ⟨List.mem_of_find?_eq_some h, by simpa using List.find?_some h⟩

theorem field?_eq_none_iff : entity.field? column = none ↔ ∀ field ∈ entity.fields, field.name ≠ column := by
  unfold field?
  rw [List.find?_eq_none]
  exact forall₂_congr fun field _ => by simp

/-- Without a field of that name, `id` is the key just where none is declared. -/
theorem primaryKey_eq_implicitKey_iff (hfield : entity.field? implicitKey = none) :
    entity.primaryKey = implicitKey ↔ ∀ field ∈ entity.fields, field.primaryKey = false := by
  unfold primaryKey keyField?
  cases hkey : entity.fields.find? Field.primaryKey with
  | none =>
    have hnone := List.find?_eq_none.1 hkey
    refine iff_of_true rfl ?_
    intro field hmem
    simpa using hnone field hmem
  | some key =>
    have hmem := List.mem_of_find?_eq_some hkey
    have htrue : key.primaryKey = true := List.find?_some hkey
    refine iff_of_false (field?_eq_none_iff.1 hfield key hmem) ?_
    intro hall
    rw [hall key hmem] at htrue
    cases htrue

/-- The column is the `id` that stands for a key, with neither a primary key nor a field of that name. -/
def Assumes (entity : Entity) (column : String) : Prop :=
  column = implicitKey ∧ ∀ field ∈ entity.fields, field.primaryKey = false ∧ field.name ≠ implicitKey

/-- A column that resolution finds is the first field of that name, or else the `id` that is assumed. -/
theorem columnType?_eq_some_iff_field? :
    entity.columnType? column = some type ↔
      (∃ field, entity.field? column = some field ∧ field.dataType = type) ∨
        entity.Assumes column ∧ type = .integer := by
  unfold columnType? Assumes
  cases hfield : entity.field? column with
  | some field =>
    obtain ⟨hmem, hname⟩ := mem_of_field? hfield
    simp only [Option.some.injEq, exists_eq_left']
    constructor
    · exact Or.inl
    · rintro (htype | ⟨⟨rfl, hkeyless⟩, -⟩)
      · exact htype
      · exact absurd hname (hkeyless field hmem).2
  | none =>
    have hnone := field?_eq_none_iff.1 hfield
    simp only [reduceCtorEq, false_and, exists_false, false_or, Option.ite_none_right_eq_some,
      Option.some.injEq]
    constructor
    · rintro ⟨⟨rfl, hkey⟩, rfl⟩
      have hkeyless := (primaryKey_eq_implicitKey_iff hfield).1 hkey
      exact ⟨⟨rfl, fun field hmem => ⟨hkeyless field hmem, hnone field hmem⟩⟩, rfl⟩
    · rintro ⟨⟨rfl, hkeyless⟩, rfl⟩
      exact ⟨⟨rfl, (primaryKey_eq_implicitKey_iff hfield).2 fun field hmem => (hkeyless field hmem).1⟩,
        rfl⟩

/-- Where the names of the fields differ, resolution finds the columns that there are, each with its one
type. -/
theorem columnType?_eq_some_iff (hnames : (entity.fields.map Field.name).Nodup) :
    entity.columnType? column = some type ↔ entity.HasColumn column type := by
  rw [columnType?_eq_some_iff_field?, HasColumn]
  refine or_congr ?_ ?_
  · simp only [field?_eq_some_iff hnames, and_assoc]
  · rw [Assumes, and_assoc, and_comm (b := type = .integer)]

end Entity

namespace Schema

variable {schema : Schema} {name column : String} {entity : Entity} {type : DataType}

/-- A column of the entity of some name. -/
def HasColumn (schema : Schema) (name column : String) (type : DataType) : Prop :=
  ∃ entity ∈ schema.entities, entity.name = name ∧ entity.HasColumn column type

theorem hasColumn_iff (hkeyed : schema.Keyed) (hentity : schema.entity? name = some entity) :
    schema.HasColumn name column type ↔ entity.columnType? column = some type := by
  obtain ⟨hmem, hname⟩ := (find?_eq_some_iff_of_nodup hkeyed.names).1 hentity
  rw [Entity.columnType?_eq_some_iff (hkeyed.fields entity hmem)]
  constructor
  · rintro ⟨other, hother, hsame, hcolumn⟩
    obtain rfl : entity = other :=
      List.inj_on_of_nodup_map hkeyed.names hmem hother (hname.trans hsame.symm)
    exact hcolumn
  · intro hcolumn
    exact ⟨entity, hmem, hname, hcolumn⟩

end Schema

namespace Accessor

/-- Everything that an accessor of `owner` names is there, and the type of its key is that of the column
which is looked up. -/
structure Sound (schema : Schema) (owner : Entity) (accessor : Accessor) : Prop where
  target : ∃ entity ∈ schema.entities, entity.name = accessor.target
  parentKey : ∃ type, owner.HasColumn accessor.association.firstHop.parentKey type
  column : ∀ type, schema.HasColumn accessor.association.firstHop.entity
    accessor.association.firstHop.column type ↔ type = accessor.association.firstHop.dataType
  /-- The first hop leads to the target, or else to the join entity and from there to the target. -/
  route : match accessor.association with
    | .direct lookup => lookup.entity = accessor.target
    | .joined through lookup joinColumn targetColumn =>
      lookup.entity = through ∧ (∃ type, schema.HasColumn through joinColumn type) ∧
        ∃ type, schema.HasColumn accessor.target targetColumn type

variable {schema : Schema} {owner : Entity} {relation : Relation} {accessor : Accessor}

theorem hasColumn_of_keyLookup (hkeyed : schema.Keyed) (howner : owner ∈ schema.entities)
    {queried : Entity} (hqueried : schema.entity? queried.name = some queried)
    {target column parentKey : String} {lookup : KeyLookup}
    (h : keyLookup owner target queried column parentKey = .ok lookup) :
    lookup.entity = queried.name ∧ (∃ type, owner.HasColumn lookup.parentKey type) ∧
      ∀ type, schema.HasColumn lookup.entity lookup.column type ↔ type = lookup.dataType := by
  obtain ⟨⟨parentType, hparent⟩, dataType, hcolumn, rfl⟩ := keyLookup_eq_ok.1 h
  have howned := (Entity.columnType?_eq_some_iff (hkeyed.fields owner howner)).1 hparent
  refine ⟨rfl, ⟨parentType, howned⟩, ?_⟩
  intro type
  rw [Schema.hasColumn_iff hkeyed hqueried, hcolumn, Option.some.injEq, eq_comm]

/-- A relation that resolves names no column that is not there, directly or by way of a join entity. -/
theorem sound_of_resolve (hkeyed : schema.Keyed) (howner : owner ∈ schema.entities)
    (h : resolve schema owner relation = .ok accessor) : accessor.Sound schema owner := by
  obtain ⟨target, association, htarget, hassociates, rfl⟩ := resolve_eq_ok.1 h
  have hmem : target ∈ schema.entities := List.mem_of_find?_eq_some htarget
  rw [← Schema.name_of_entity? htarget] at htarget
  cases association with
  | direct lookup =>
    obtain ⟨-, hlookup⟩ := associates_direct_iff.1 hassociates
    obtain ⟨hentity, hparent, hcolumn⟩ := hasColumn_of_keyLookup hkeyed howner htarget hlookup
    exact ⟨⟨target, hmem, rfl⟩, hparent, hcolumn, hentity⟩
  | joined through lookup joinColumn targetColumn =>
    obtain ⟨-, join, hjoin, hlookup, ⟨joinType, hjoinType⟩, ⟨targetType, htargetType⟩, -, -⟩ :=
      associates_joined_iff.1 hassociates
    obtain rfl := Schema.name_of_entity? hjoin
    obtain ⟨hentity, hparent, hcolumn⟩ := hasColumn_of_keyLookup hkeyed howner hjoin hlookup
    exact ⟨⟨target, hmem, rfl⟩, hparent, hcolumn, hentity,
      ⟨joinType, (Schema.hasColumn_iff hkeyed hjoin).2 hjoinType⟩,
      ⟨targetType, (Schema.hasColumn_iff hkeyed htarget).2 htargetType⟩⟩

end Accessor

/-- In every schema of a document that resolves, each accessor of each entity is sound. -/
theorem accessors_sound {doc : Document} (hkeyed : doc.Keyed) {schema : Schema}
    (hload : Schema.load doc = .ok schema) {resolved : List ResolvedEntity}
    (hresolve : schema.resolve = .ok resolved) :
    resolved.map ResolvedEntity.entity = schema.entities ∧
      ∀ result ∈ resolved, ∀ accessor ∈ result.accessors, accessor.Sound schema result.entity := by
  refine ⟨Schema.entities_of_resolve hresolve, ?_⟩
  intro result hresult accessor haccessor
  obtain ⟨howner, relation, -, hrelation⟩ := Schema.mem_accessors hresolve hresult haccessor
  exact Accessor.sound_of_resolve (Schema.keyed_of_load hkeyed hload) howner hrelation

/-- The document of the people and their friendships. -/
def people.document : Document where
  models := some [
    ("Person", ⟨"people", [("id", ⟨"integer", true, true, false, none, none, none, none⟩)], []⟩),
    ("Friendship", ⟨"friendships", [
      ("maker_id", ⟨"integer", true, false, false, none, none, none, some "Person"⟩),
      ("friend_id", ⟨"integer", true, false, false, none, none, none, some "Person"⟩)], []⟩)]
  relationships := [("Person", {
    hasOne := []
    hasMany := [("Person", ⟨"accepted", "maker_id", none, none, some "Friendship"⟩)]
    belongsToOne := []
    belongsToMany := [("Person", ⟨"made", "friend_id", none, none, some "Friendship"⟩)] })]
  api := .standard

theorem accessors_sound_for_people :
    people.document.Keyed ∧ Schema.load people.document = .ok people ∧
      people.resolve = .ok people.resolved ∧
      ∀ accessor ∈ people.resolved[0].accessors, accessor.Sound people people.entities[0] := by
  have hkeyed : people.document.Keyed := ⟨by decide, by decide⟩
  have hload : Schema.load people.document = .ok people := by decide
  obtain ⟨-, hsound⟩ := accessors_sound hkeyed hload people_resolve
  exact ⟨hkeyed, hload, people_resolve, hsound _ (by decide)⟩

end EntityForge
