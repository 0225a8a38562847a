import EntityForge.Generation
import EntityForge.Proofs.WellFormed

/-!
What the rest of a schema has to do with one entity.

An entity is resolved against other entities, but of those nothing counts except their names and their fields.
So what is generated for an entity depends on its own declaration and on the fields of the models that
its relations ask for, whatever else is declared and in whatever order. Main statements: `resolve_congr`
for one relation, `fragments_congr` for an entity, and `entities_subset_of_load`, by which a document that has
the models of another one has its entities.
-/

namespace EntityForge

theorem mapM_congr {α β ε : Type} {f g : α → Except ε β} {values : List α}
    (h : ∀ value ∈ values, f value = g value) : values.mapM f = values.mapM g := by
  induction values with
  | nil => rfl
  | cons value values ih =>
    obtain ⟨hvalue, hvalues⟩ := List.forall_mem_cons.1 h
    rw [List.mapM_cons, List.mapM_cons, hvalue, ih hvalues]

/-- A relation asks for its target, and a relation to many for the model that it goes through. -/
def Relation.AsksFor (relation : Relation) (name : String) : Prop :=
  name = relation.target ∨ relation.kind.isMany = true ∧ relation.through = some name

namespace Accessor

variable {schema other : Schema} {owner target join target' join' : Entity} {relation : Relation}

theorem direct_congr (hname : target.name = target'.name) (hfields : target.fields = target'.fields) :
    direct owner target relation = direct owner target' relation := by
  obtain ⟨name, table, fields, indexes, relations⟩ := target
  obtain ⟨name', table', fields', indexes', relations'⟩ := target'
  obtain rfl : name = name' := hname
  obtain rfl : fields = fields' := hfields
  rfl

theorem joined_congr (htarget : target.name = target'.name) (htargetFields : target.fields = target'.fields)
    (hjoin : join.name = join'.name) (hjoinFields : join.fields = join'.fields) :
    joined owner target join relation = joined owner target' join' relation := by
  obtain ⟨name, table, fields, indexes, relations⟩ := target
  obtain ⟨name', table', fields', indexes', relations'⟩ := target'
  obtain rfl : name = name' := htarget
  obtain rfl : fields = fields' := htargetFields
  obtain ⟨through, joinTable, joinFields, joinIndexes, joinRelations⟩ := join
  obtain ⟨through', joinTable', joinFields', joinIndexes', joinRelations'⟩ := join'
  obtain rfl : through = through' := hjoin
  obtain rfl : joinFields = joinFields' := hjoinFields
  rfl

end Accessor

namespace Schema

/-- A model is in neither of two schemas, or in both of them with the same fields. -/
def AgreeOn (schema other : Schema) (name : String) : Prop :=
  (name ∉ schema.entities.map Entity.name ∧ name ∉ other.entities.map Entity.name) ∨
    ∃ mine ∈ schema.entities, ∃ theirs ∈ other.entities,
      mine.name = name ∧ theirs.name = name ∧ mine.fields = theirs.fields

variable {schema other : Schema}

/-- Where two schemas agree on a model, looking it up in either finds nothing, or entities that cannot be told
apart by name and fields. -/
theorem AgreeOn.lookup (hschema : schema.Keyed) (hother : other.Keyed) {name : String}
    (h : schema.AgreeOn other name) :
    (schema.entity? name = none ∧ other.entity? name = none) ∨
      ∃ mine theirs, schema.entity? name = some mine ∧ other.entity? name = some theirs ∧
        mine.name = theirs.name ∧ mine.fields = theirs.fields := by
  rcases h with ⟨habsent, habsent'⟩ | ⟨mine, hmine, theirs, htheirs, hname, hname', hfields⟩
  · left
    constructor
    · rw [entity?, List.find?_eq_none]
      intro entity hentity
      simpa using fun hsame => habsent (List.mem_map.2 ⟨entity, hentity, hsame⟩)
    · rw [entity?, List.find?_eq_none]
      intro entity hentity
      simpa using fun hsame => habsent' (List.mem_map.2 ⟨entity, hentity, hsame⟩)
  · right
    have hfound : schema.entity? name = some mine :=
      (find?_eq_some_iff_of_nodup hschema.names).2 ⟨hmine, hname⟩
    have hfound' : other.entity? name = some theirs :=
      (find?_eq_some_iff_of_nodup hother.names).2 ⟨htheirs, hname'⟩
    exact ⟨mine, theirs, hfound, hfound', hname.trans hname'.symm, hfields⟩

theorem agreeOn_of_subset (h : schema.entities ⊆ other.entities) {name : String} {entity : Entity}
    (hfound : schema.entity? name = some entity) : schema.AgreeOn other name := by
  have hmem : entity ∈ schema.entities := List.mem_of_find?_eq_some hfound
  have hname := name_of_entity? hfound
  exact Or.inr ⟨entity, hmem, entity, h hmem, hname, hname, rfl⟩

end Schema

namespace Accessor

variable {schema other : Schema} {owner : Entity} {relation : Relation}

/-- A relation is resolved to one and the same accessor, or refused for one and the same reason, in any two
schemas that agree on the models it asks for. -/
theorem resolve_congr (hschema : schema.Keyed) (hother : other.Keyed)
    (h : ∀ name, relation.AsksFor name → schema.AgreeOn other name) :
    resolve schema owner relation = resolve other owner relation := by
  unfold resolve requireEntity
  rcases (h relation.target (Or.inl rfl)).lookup hschema hother with
    ⟨hnone, hnone'⟩ | ⟨target, target', htarget, htarget', hname, hfields⟩
  · rw [hnone, hnone']
    rfl
  · rw [htarget, htarget']
    cases hjoin : joinOf relation with
    | none => simp only [bind, Except.bind, direct_congr hname hfields, hname]
    | some through =>
      have hasks : relation.AsksFor through := Or.inr (joinOf_eq_some_iff.1 hjoin)
      rcases (h through hasks).lookup hschema hother with
        ⟨hnone, hnone'⟩ | ⟨join, join', hfound, hfound', hjoinName, hjoinFields⟩
      · simp only [hnone, hnone', bind, Except.bind]
      · simp only [hfound, hfound', bind, Except.bind,
          joined_congr hname hfields hjoinName hjoinFields, hname]

/-- A relation that resolves has found every model that it asks for. -/
theorem exists_entity_of_asksFor {accessor : Accessor} (h : resolve schema owner relation = .ok accessor)
    {name : String} (hasks : relation.AsksFor name) : ∃ entity, schema.entity? name = some entity := by
  obtain ⟨target, association, htarget, hassociates, -⟩ := resolve_eq_ok.1 h
  rcases hasks with rfl | hthrough
  · exact ⟨target, htarget⟩
  · rw [Associates, joinOf_eq_some_iff.2 hthrough] at hassociates
    obtain ⟨join, hjoin, -⟩ := hassociates
    exact ⟨join, hjoin⟩

end Accessor

namespace Schema

/-- Everything that is generated for one entity: what its relations resolve to goes into all surfaces. -/
def fragments (schema : Schema) (policy : OwnerPolicy) (entity : Entity) :
    Except ResolveError (List Fragment) := do
  let accessors ← entity.relations.mapM (Accessor.resolve schema entity)
  return Surface.all.map (Fragment.of (Subject.of policy ⟨entity, accessors⟩))

variable {schema other : Schema} {policy : OwnerPolicy} {entity : Entity}

/-- Where a whole schema resolves, those are the fragments that it is generated from. -/
theorem fragments_of_resolve {resolved : List ResolvedEntity} (h : schema.resolve = .ok resolved)
    {result : ResolvedEntity} (hresult : result ∈ resolved) :
    schema.fragments policy result.entity = .ok (Surface.all.map (Fragment.of (.of policy result))) := by
  obtain ⟨entity, -, rfl, hrelations⟩ := exists_of_forall₂_right (resolve_eq_ok.1 h) hresult
  rw [fragments, mapM_eq_ok.2 hrelations]
  rfl

theorem fragments_congr (hschema : schema.Keyed) (hother : other.Keyed)
    (h : ∀ relation ∈ entity.relations, ∀ name, relation.AsksFor name → schema.AgreeOn other name) :
    schema.fragments policy entity = other.fragments policy entity := by
  have hrelations : entity.relations.mapM (Accessor.resolve schema entity) =
      entity.relations.mapM (Accessor.resolve other entity) := by
    apply mapM_congr
    intro relation hrelation
    exact Accessor.resolve_congr hschema hother (h relation hrelation)
  rw [fragments, fragments, hrelations]

/-- More models change nothing about an entity that has found all models it asks for. -/
theorem fragments_of_subset (hschema : schema.Keyed) (hother : other.Keyed)
    (hsubset : schema.entities ⊆ other.entities) {fragments : List Fragment}
    (h : schema.fragments policy entity = .ok fragments) : other.fragments policy entity = .ok fragments := by
  rw [← fragments_congr hschema hother, h]
  intro relation hrelation name hasks
  obtain ⟨accessors, haccessors, -⟩ := bind_eq_ok.1 h
  obtain ⟨accessor, -, hresolve⟩ := exists_of_forall₂_right (mapM_eq_ok.1 haccessors).flip hrelation
  obtain ⟨found, hfound⟩ := Accessor.exists_entity_of_asksFor hresolve hasks
  exact agreeOn_of_subset hsubset hfound

/-- An entity is made from its model and its block alone, so the entities of a document are found again where
its models are, each with the same block. -/
theorem entities_subset_of_load {doc doc' : Document} (hblocks : doc.relationships.keys.Nodup)
    (hblocks' : doc'.relationships.keys.Nodup) (h : load doc = .ok schema) (h' : load doc' = .ok other)
    {models models' : Entries ModelDecl} (hmodels : doc.models = some models)
    (hmodels' : doc'.models = some models') (hsubset : models ⊆ models')
    (hsame : ∀ name ∈ models.keys, doc'.relationships.get? name = doc.relationships.get? name) :
    schema.entities ⊆ other.entities := by
  obtain ⟨plain, hplain, h⟩ := bind_eq_ok.1 h
  obtain ⟨attached, hattached, h⟩ := bind_eq_ok.1 h
  obtain rfl := pure_eq_ok.1 h
  obtain ⟨plain', hplain', h'⟩ := bind_eq_ok.1 h'
  obtain ⟨attached', hattached', h'⟩ := bind_eq_ok.1 h'
  obtain rfl := pure_eq_ok.1 h'
  obtain ⟨known, hknown, hloaded⟩ := loadModels_eq_ok hplain
  obtain rfl : models = known := Option.some.inj (hmodels.symm.trans hknown)
  obtain ⟨known', hknown', hloaded'⟩ := loadModels_eq_ok hplain'
  obtain rfl : models' = known' := Option.some.inj (hmodels'.symm.trans hknown')
  rw [attachAll_eq_ok hblocks hattached, attachAll_eq_ok hblocks' hattached']
  intro entity hentity
  obtain ⟨bare, hbare, rfl⟩ := List.mem_map.1 hentity
  obtain ⟨entry, hentry, hload⟩ := exists_of_forall₂_right hloaded hbare
  obtain ⟨bare', hbare', hload'⟩ := exists_of_forall₂_right hloaded'.flip (hsubset hentry)
  obtain rfl : bare = bare' := Except.ok.inj (hload.symm.trans hload')
  have hname : bare.name ∈ models.keys := by
    rw [(ModelDecl.load_names hload).1]
    exact List.mem_map_of_mem hentry
  refine List.mem_map.2 ⟨bare, hbare', ?_⟩
  rw [hsame bare.name hname]

end Schema

/-- What is generated for an entity does not depend on the rest of its schema. Two schemas that agree on every
model its relations ask for give it the same fragments, or refuse it for the same reason. So nothing that is
generated for an entity changes when the models of a document are put in another order or when others are
added to them. -/
theorem fragments_independent {doc doc' : Document} (hdoc : doc.Keyed) (hdoc' : doc'.Keyed)
    (hblocks : doc.relationships.keys.Nodup) (hblocks' : doc'.relationships.keys.Nodup)
    {schema other : Schema} (h : Schema.load doc = .ok schema) (h' : Schema.load doc' = .ok other)
    (policy : OwnerPolicy) :
    (∀ entity ∈ schema.entities, entity ∈ other.entities →
      (∀ relation ∈ entity.relations, ∀ name, relation.AsksFor name → schema.AgreeOn other name) →
      schema.fragments policy entity = other.fragments policy entity) ∧
    (∀ models models', doc.models = some models → doc'.models = some models' → models ⊆ models' →
      (∀ name ∈ models.keys, doc'.relationships.get? name = doc.relationships.get? name) →
      ∀ entity ∈ schema.entities, entity ∈ other.entities ∧
        ∀ fragments, schema.fragments policy entity = .ok fragments →
          other.fragments policy entity = .ok fragments) ∧
    ∀ resolved, schema.resolve = .ok resolved → ∀ result ∈ resolved,
      schema.fragments policy result.entity =
        .ok (Surface.all.map (Fragment.of (.of policy result))) := by
  have hschema := Schema.keyed_of_load hdoc h
  have hother := Schema.keyed_of_load hdoc' h'
  refine ⟨?_, ?_, ?_⟩
  · intro entity _ _ hagree
    exact Schema.fragments_congr hschema hother hagree
  · intro models models' hmodels hmodels' hsubset hsame entity hentity
    have hentities :=
      Schema.entities_subset_of_load hblocks hblocks' h h' hmodels hmodels' hsubset hsame
    refine ⟨hentities hentity, ?_⟩
    intro fragments hfragments
    exact Schema.fragments_of_subset hschema hother hentities hfragments
  · intro resolved hresolve result hresult
    exact Schema.fragments_of_resolve hresolve hresult

/-- The people and their friendships the other way round, and countries that have nothing to do with them. -/
def peopleAndCountries.document : Document :=
  { people.document with
    models := people.document.models.map fun models =>
      models.reverse ++ [
        ("Country", ⟨"countries", [("code", ⟨"text", true, true, false, none, none, none, none⟩)], []⟩)] }

def peopleAndCountries : Schema where
  entities := people.entities.reverse ++ [
    { name := "Country"
      tableName := "countries"
      fields := [⟨"code", .text, true, true, false, none, none, none, none⟩]
      indexes := []
      relations := [] }]
  api := .standard

theorem fragments_independent_for_people :
    people.document.Keyed ∧ peopleAndCountries.document.Keyed ∧
      Schema.load people.document = .ok people ∧
      Schema.load peopleAndCountries.document = .ok peopleAndCountries ∧
      people.resolve = .ok people.resolved ∧
      ∀ result ∈ people.resolved, result.entity ∈ peopleAndCountries.entities ∧
        peopleAndCountries.fragments .standard result.entity =
          .ok (Surface.all.map (Fragment.of (.of .standard result))) := by
  have hkeyed : peopleAndCountries.document.Keyed := ⟨by decide, by decide⟩
  have hload : Schema.load peopleAndCountries.document = .ok peopleAndCountries := by decide
  obtain ⟨-, hmore, hresults⟩ :=
    fragments_independent people_keyed hkeyed (by decide) (by decide) people_load hload .standard
  have hentities := hmore _ _ rfl rfl (by decide) (by decide)
  refine ⟨people_keyed, hkeyed, people_load, hload, people_resolve, ?_⟩
  intro result hresult
  have hentity : result.entity ∈ people.entities := by
    rw [← Schema.entities_of_resolve people_resolve]
    exact List.mem_map_of_mem hresult
  obtain ⟨hmem, hfragments⟩ := hentities result.entity hentity
  exact ⟨hmem, hfragments _ (hresults people.resolved people_resolve result hresult)⟩

end EntityForge
