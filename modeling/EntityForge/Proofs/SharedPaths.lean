import EntityForge.Proofs.ApiDocument
import EntityForge.Proofs.Plurals
import Mathlib.Data.Sym.Sym2

/-!
When the published document says of a path what an entity has said of it.

The end of a path tells which of an entity's paths it is, and what is left tells the plural. So two entities
meet at a path just when they have one plural, and of the names that could give it there are two at most. There
their operations are merged, and the tags of all of them follow one another, which no entity said of itself. Main
statements: `plurals_shared_in_pairs`, `Tagged.foldl_mergeOver`, `pathKept_iff` and `paths_isolated_iff`.
-/

namespace EntityForge

open Json (Readable mergeMembers mergeOver)

/-- The plural that the paths of an entity start with, and the directory of its files. -/
def Entity.directory (entity : Entity) : String := (Names.ofModel entity.name).kebabPlural

theorem Entity.getLast?_directory (entity : Entity) :
    entity.directory.toList.getLast? = some 's' := Names.getLast?_kebabPlural entity.name

namespace OpenApi

/-- What follows the plural in the paths of an entity. -/
def pathEndings : List String := ["", "/search", "/\x7bid\x7d"]

end OpenApi

/-- The paths of an entity: of all of its kind, of a search among them, and of a single one. -/
def Entity.paths (entity : Entity) : List String :=
  OpenApi.pathEndings.map fun ending => "/" ++ entity.directory ++ ending

namespace OpenApi

theorem paths_eq (entity : Entity) : (pathItems entity).map PathItem.path = entity.paths := by
  simp [pathItems, collection, search, single, Entity.paths, pathEndings, basePath, Entity.directory]

/-- The last letter of a path is that of what follows the plural, or that of the plural. -/
theorem getLast?_path {plural : String} (hplural : plural.toList.getLast? = some 's')
    (ending : String) :
    ("/" ++ plural ++ ending).toList.getLast? = some (ending.toList.getLast?.getD 's') := by
  rw [String.toList_append, String.toList_append, List.getLast?_append, List.getLast?_append, hplural]
  cases ending.toList.getLast? <;> rfl

/-- So it tells what follows the plural. -/
theorem pathEndings_inj : ∀ ending ∈ pathEndings, ∀ ending' ∈ pathEndings,
    ending.toList.getLast?.getD 's' = ending'.toList.getLast?.getD 's' → ending = ending' := by
  decide

/-- Entities that meet at a path have one plural. -/
theorem directory_of_paths {entity other : Entity} {path : String} (hpath : path ∈ entity.paths)
    (hother : path ∈ other.paths) : entity.directory = other.directory := by
  obtain ⟨ending, hending, rfl⟩ := List.mem_map.1 hpath
  obtain ⟨ending', hending', hsame⟩ := List.mem_map.1 hother
  have hlast := congrArg (fun s => s.toList.getLast?) hsame
  simp only [getLast?_path entity.getLast?_directory, getLast?_path other.getLast?_directory,
    Option.some.injEq] at hlast
  obtain rfl := pathEndings_inj _ hending' _ hending hlast
  simpa using hsame.symm

/-- Entities of one plural have the same paths. -/
theorem paths_of_directory {entity other : Entity} (h : entity.directory = other.directory) :
    entity.paths = other.paths := by
  rw [Entity.paths, h, Entity.paths]

end OpenApi

section Plurals

open Identifier (plural plural_eq_iff homonym_iff eq_of_plural)

theorem sym2_eq_iff_homonym {a b : String} :
    Identifier.Homonym a.toList b.toList ∨ Identifier.Homonym b.toList a.toList ↔
      (∃ x, s(a, b) = s(x ++ "s", x ++ "se")) ∨
        ∃ x : String, x.toList.getLast? ≠ some 'e' ∧ s(a, b) = s(x ++ "y", x ++ "ie") := by
  simp only [homonym_iff, Sym2.eq_iff]
  grind

/-- Two words have one plural just when they are the same, or differ in their last letters in one of two ways.
So no third word shares it. A plural ends in an `s`, which none of the endings of paths has, so entities that differ
in their plurals have no path in common. -/
theorem plurals_shared_in_pairs :
    (∀ a b, plural a = plural b ↔
      a = b ∨ (∃ x, s(a, b) = s(x ++ "s", x ++ "se")) ∨
        ∃ x : String, x.toList.getLast? ≠ some 'e' ∧ s(a, b) = s(x ++ "y", x ++ "ie")) ∧
    (∀ a b c, plural a = plural b → plural b = plural c → a = b ∨ b = c ∨ a = c) ∧
    (∀ a, (plural a).toList.getLast? = some 's') ∧
    ∀ entity other : Entity,
      (Names.ofModel entity.name).kebabPlural ≠ (Names.ofModel other.name).kebabPlural →
      ((OpenApi.pathItems entity).map OpenApi.PathItem.path).Disjoint
        ((OpenApi.pathItems other).map OpenApi.PathItem.path) := by
  refine ⟨?_, ?_, Identifier.getLast?_plural, ?_⟩
  · intro a b
    rw [plural_eq_iff, sym2_eq_iff_homonym]
  · intro a b c hab hbc
    -- two of the three words agree on whether they end in an `e`
    by_cases hfirst : a.toList.getLast? = some 'e' ↔ b.toList.getLast? = some 'e'
    · exact Or.inl (eq_of_plural hab hfirst)
    · by_cases hlast : b.toList.getLast? = some 'e' ↔ c.toList.getLast? = some 'e'
      · exact Or.inr (Or.inl (eq_of_plural hbc hlast))
      · exact Or.inr (Or.inr (eq_of_plural (hab.trans hbc) (by tauto)))
  · intro entity other hne path hpath hother
    rw [OpenApi.paths_eq] at hpath hother
    exact hne (OpenApi.directory_of_paths hpath hother)

theorem plurals_shared_for_categories :
    plural "Category" = plural "Categorie" ∧ plural "Categorie" = plural "Category" ∧
      ("Category" = "Categorie" ∨ "Categorie" = "Category" ∨ "Category" = "Category") ∧
      ∀ entity ∈ people.entities, ∀ other ∈ people.entities, entity ≠ other →
        (Names.ofModel entity.name).kebabPlural ≠ (Names.ofModel other.name).kebabPlural ∧
        ((OpenApi.pathItems entity).map OpenApi.PathItem.path).Disjoint
          ((OpenApi.pathItems other).map OpenApi.PathItem.path) := by
  obtain ⟨-, hthree, -, hdisjoint⟩ := plurals_shared_in_pairs
  have hplural : plural "Category" = plural "Categorie" := by decide
  have hdiffer : ∀ entity ∈ people.entities, ∀ other ∈ people.entities, entity ≠ other →
      (Names.ofModel entity.name).kebabPlural ≠ (Names.ofModel other.name).kebabPlural := by decide
  refine ⟨hplural, hplural.symm, hthree _ _ _ hplural hplural.symm, ?_⟩
  intro entity hentity other hother hne
  have hplurals := hdiffer entity hentity other hother hne
  exact ⟨hplurals, hdisjoint entity other hplurals⟩

end Plurals

namespace OpenApi

theorem nodup_pathEntries (entity : Entity) : ((pathEntries entity).map Prod.fst).Nodup := by
  rw [keys_pathEntries]
  exact nodup_paths entity

theorem readable_of_get?_pathEntries {entity : Entity} {path : String} {value : Json}
    (h : Entries.get? (pathEntries entity) path = some value) : Readable 8 value := by
  have hobject : Readable 9 (.object (pathEntries entity)) := readable_paths entity (by decide)
  exact Json.readableMembers_iff.1 hobject.2.2 _ (Entries.mem_of_get? h)

theorem get?_pathEntries_of_not_mem {entity : Entity} {path : String} (h : path ∉ entity.paths) :
    Entries.get? (pathEntries entity) path = none := by
  rwa [Entries.get?_eq_none_iff, Entries.keys, keys_pathEntries, paths_eq]

/-- Whichever of its paths it is, an entity can be read there, by an operation tagged with its name. -/
theorem tags_of_pathItems {entity : Entity} {item : PathItem} (hitem : item ∈ pathItems entity) :
    (item.toJson (sample entity)).member? ["get", "tags"] =
      some (.array [.string entity.name]) := by
  simp only [pathItems, List.mem_cons, List.not_mem_nil, or_false] at hitem
  rcases hitem with rfl | rfl | rfl <;> rfl

theorem get?_pathEntries_of_mem {entity : Entity} {path : String} (h : path ∈ entity.paths) :
    ∃ value, Entries.get? (pathEntries entity) path = some value ∧
      value.member? ["get", "tags"] = some (.array [.string entity.name]) := by
  rw [← paths_eq, List.mem_map] at h
  obtain ⟨item, hitem, rfl⟩ := h
  have hvalue : Entries.get? (pathEntries entity) item.path = some (item.toJson (sample entity)) :=
    (Entries.get?_eq_some_iff (nodup_pathEntries entity)).2 (List.mem_map_of_mem hitem)
  exact ⟨_, hvalue, tags_of_pathItems hitem⟩

end OpenApi

/-- The tag with which an entity joins in at a path, where this is one of its own. -/
def Entity.tagsAt (path : String) (entity : Entity) : List Json :=
  if path ∈ entity.paths then [.string entity.name] else []

/-- What stands under a path is either nothing, without tags, or something that is read by a tagged
operation. -/
inductive Tagged : List Json → Option Json → Prop
  | nothing : Tagged [] none
  | found {tags : List Json} {item : Json} (h : item.member? ["get", "tags"] = some (.array tags)) :
    Tagged tags (some item)

namespace Tagged

open OpenApi

theorem get?_pathEntries (path : String) (entity : Entity) :
    Tagged (entity.tagsAt path) (Entries.get? (pathEntries entity) path) := by
  unfold Entity.tagsAt
  split
  · next hpath =>
    obtain ⟨value, hvalue, htags⟩ := get?_pathEntries_of_mem hpath
    rw [hvalue]
    exact .found htags
  · next hpath =>
    rw [get?_pathEntries_of_not_mem hpath]
    exact .nothing

theorem mergeOver {old? value? : Option Json} {before tags : List Json} (hold : Tagged before old?)
    (hvalue : Tagged tags value?) {room : Nat}
    (hreadable : ∀ value, value? = some value → Readable room value) :
    Tagged (before ++ tags) (Json.mergeOver old? value?) := by
  cases hvalue with
  | nothing =>
    rw [List.append_nil]
    cases old? <;> exact hold
  | found h =>
    cases hold with
    | nothing => exact .found h
    | found hbefore => exact .found (Json.member?_merge_array (hreadable _ rfl) hbefore h)

theorem unique {tags tags' : List Json} {found? : Option Json} (h : Tagged tags found?)
    (h' : Tagged tags' found?) : tags = tags' := by
  cases h with
  | nothing =>
    cases h'
    rfl
  | found h =>
    cases h' with
    | found h' => exact Json.array.inj (Option.some.inj (h.symm.trans h'))

/-- All entities that meet at a path tag what stands there, one after the other. -/
theorem foldl_mergeOver (path : String) {before : List Json} {old? : Option Json}
    (h : Tagged before old?) (entities : List Entity) :
    Tagged (before ++ entities.flatMap (Entity.tagsAt path))
      ((entities.map fun entity => Entries.get? (pathEntries entity) path).foldl
        Json.mergeOver old?) := by
  induction entities generalizing before old? with
  | nil => simpa using h
  | cons entity entities ih =>
    have hstep : Tagged (before ++ entity.tagsAt path)
        (Json.mergeOver old? (Entries.get? (pathEntries entity) path)) :=
      h.mergeOver (get?_pathEntries path entity) fun _ => readable_of_get?_pathEntries
    rw [List.flatMap_cons, ← List.append_assoc, List.map_cons, List.foldl_cons]
    exact ih hstep

end Tagged

/-- The document says of a path what the entity says of it. -/
def PathKept (document : Json) (entity : Entity) (path : String) : Prop :=
  ∃ value, (OpenApi.fragment entity).member? ["paths", path] = some value ∧
    document.member? ["paths", path] = some value

section Kept

variable {document : Json} {entities : List Entity} {entity : Entity} {path : String}

theorem member?_paths
    (h : document.get? "paths" =
      some (.object ((entities.map OpenApi.pathEntries).foldl mergeMembers []))) (path : String) :
    document.member? ["paths", path] =
      (entities.map fun entity => Entries.get? (OpenApi.pathEntries entity) path).foldl
        mergeOver none := by
  have hnodup : ∀ part ∈ entities.map OpenApi.pathEntries, (part.map Prod.fst).Nodup :=
    List.forall_mem_map.2 fun entity _ => OpenApi.nodup_pathEntries entity
  have hmember : document.member? ["paths", path] =
      Entries.get? ((entities.map OpenApi.pathEntries).foldl mergeMembers []) path := by
    rw [Json.member?, h, Option.bind_some, Json.member?]
    exact Option.bind_fun_some _
  rw [hmember, Json.get?_foldl_mergeMembers hnodup, List.map_map]
  rfl

/-- An entity keeps a path of its own just when no other one has its plural. -/
theorem pathKept_iff (hnames : (entities.map Entity.name).Nodup) (hentity : entity ∈ entities)
    (hpath : path ∈ entity.paths)
    (h : document.get? "paths" =
      some (.object ((entities.map OpenApi.pathEntries).foldl mergeMembers []))) :
    PathKept document entity path ↔
      ∀ other ∈ entities, other ≠ entity → other.directory ≠ entity.directory := by
  obtain ⟨own, hown, htags⟩ := OpenApi.get?_pathEntries_of_mem hpath
  rw [PathKept, OpenApi.member?_fragment_paths, member?_paths h, hown]
  constructor
  · rintro ⟨value, hvalue, hmerged⟩ other hother hne hsame
    obtain rfl := Option.some.inj hvalue
    -- alone the entity would be the only tag, together with the other it is not
    have hall : Tagged (entities.flatMap (Entity.tagsAt path)) (some own) := by
      have htagged := Tagged.foldl_mergeOver path .nothing entities
      rwa [hmerged] at htagged
    have hmem : Json.string other.name ∈ entities.flatMap (Entity.tagsAt path) := by
      refine List.mem_flatMap.2 ⟨other, hother, ?_⟩
      rw [Entity.tagsAt, OpenApi.paths_of_directory hsame, if_pos hpath]
      exact List.mem_singleton_self _
    rw [Tagged.unique hall (.found htags), List.mem_singleton] at hmem
    exact hne (List.inj_on_of_nodup_map hnames hother hentity (Json.string.inj hmem))
  · intro hothers
    refine ⟨own, rfl, Json.foldl_mergeOver_of_unique (hnames.of_map _) hentity hown ?_⟩
    intro other hother hne
    refine OpenApi.get?_pathEntries_of_not_mem fun hshared => ?_
    exact hothers other hother hne (OpenApi.directory_of_paths hshared hpath)

end Kept

section Document

variable {schema : Schema} {policy : OwnerPolicy} {layout : Layout} {artifacts : List Artifact}

theorem nodup_directories_iff (hnames : (schema.entities.map Entity.name).Nodup) :
    schema.directories.Nodup ↔ ∀ entity ∈ schema.entities, ∀ other ∈ schema.entities,
      other ≠ entity → other.directory ≠ entity.directory := by
  have hdirectories : schema.directories = schema.entities.map Entity.directory := rfl
  rw [hdirectories, List.nodup_map_iff_inj_on (hnames.of_map _)]
  constructor
  · intro hinjective entity hentity other hother hne hsame
    exact hne (hinjective other hother entity hentity hsame)
  · intro hdifferent entity hentity other hother hsame
    by_contra hne
    exact hdifferent other hother entity hentity hne hsame

theorem pathKept_of_generate (hnames : (schema.entities.map Entity.name).Nodup)
    (h : schema.generate policy layout = .ok artifacts) :
    ∃ document, Artifact.published? layout artifacts = some document ∧
      ∀ entity ∈ schema.entities, ∀ path ∈ entity.paths, (PathKept document entity path ↔
        ∀ other ∈ schema.entities, other ≠ entity → other.directory ≠ entity.directory) := by
  obtain ⟨document, hread, hpublished⟩ := published_of_generate h
  exact ⟨document, hread, fun entity hentity path hpath =>
    pathKept_iff hnames hentity hpath hpublished.paths⟩

/-- The published document says of each path of an entity what the entity has said of it, wherever this comes
in the schema, exactly when no other entity has its plural; so it does for all entities exactly when their
plurals differ. All this needs is that no two entities have one name, as in every schema that is loaded. -/
theorem paths_isolated_iff (hnames : (schema.entities.map Entity.name).Nodup)
    (h : schema.generate policy layout = .ok artifacts) :
    ∃ document, Artifact.published? layout artifacts = some document ∧
      (∀ entity ∈ schema.entities, ∀ path ∈ entity.paths, (PathKept document entity path ↔
        ∀ other ∈ schema.entities, other ≠ entity → other.directory ≠ entity.directory)) ∧
      ((∀ entity ∈ schema.entities, ∀ path ∈ entity.paths, PathKept document entity path) ↔
        schema.directories.Nodup) := by
  obtain ⟨document, hread, hkept⟩ := pathKept_of_generate hnames h
  refine ⟨document, hread, hkept, ?_⟩
  rw [nodup_directories_iff hnames]
  constructor
  · intro hall entity hentity
    have hpath : "/" ++ entity.directory ++ "" ∈ entity.paths := List.mem_cons_self
    exact (hkept entity hentity _ hpath).1 (hall entity hentity _ hpath)
  · intro hothers entity hentity path hpath
    exact (hkept entity hentity path hpath).2 (hothers entity hentity)

end Document

theorem paths_isolated_for_people :
    ∃ artifacts document, people.generate .standard .standard = .ok artifacts ∧
      Artifact.published? .standard artifacts = some document ∧
      ∀ entity ∈ people.entities, ∀ path ∈ entity.paths, PathKept document entity path := by
  obtain ⟨artifacts, hgenerate⟩ := Schema.generate_of_resolve people_resolve .standard .standard
  obtain ⟨document, hread, -, hall⟩ := paths_isolated_iff (by decide) hgenerate
  exact ⟨artifacts, document, hgenerate, hread, hall.2 (by decide)⟩

/-- Two entities with one plural change what the other says of every path. -/
theorem not_paths_isolated_for_categories :
    ∃ artifacts document, categories.generate .standard .standard = .ok artifacts ∧
      Artifact.published? .standard artifacts = some document ∧
      ∀ entity ∈ categories.entities, ∀ path ∈ entity.paths, ¬PathKept document entity path := by
  have hresolve : categories.resolve = .ok (categories.entities.map (⟨·, []⟩)) := by decide
  obtain ⟨artifacts, hgenerate⟩ := Schema.generate_of_resolve hresolve .standard .standard
  obtain ⟨document, hread, hiff⟩ := pathKept_of_generate (by decide) hgenerate
  refine ⟨artifacts, document, hgenerate, hread, fun entity hentity path hpath hkept => ?_⟩
  have hothers := (hiff entity hentity path hpath).1 hkept
  have hshared : ∀ entity ∈ categories.entities, entity.directory = "categories" := by decide
  have hanother : ∀ entity ∈ categories.entities, ∃ other ∈ categories.entities, other ≠ entity := by
    decide
  obtain ⟨other, hother, hne⟩ := hanother entity hentity
  exact hothers other hother hne ((hshared other hother).trans (hshared entity hentity).symm)

end EntityForge
