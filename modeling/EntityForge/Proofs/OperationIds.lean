import EntityForge.Proofs.Operations
import EntityForge.Proofs.Plurals

/-!
When the operations of the published document have different identifiers.

An identifier begins with what is done and goes on with the name of an entity or its plural, so that it tells
both. Two operations have one identifier only where two entities have one plural and neither has the last word
at the paths of the other. The paths come from the plural of the kebab case, the identifiers from that of the
name itself, and for some names these two do not agree. Main statements: `OperationKind.id_inj`,
`nodup_operationIds` and `operationIds_nodup_iff`.
-/

namespace EntityForge

open Identifier (plural)

namespace OpenApi

/-- What can be done with the entities of one name. -/
inductive OperationKind where
  | list
  | create
  | search
  | find
  | update
  | patch
  | delete
  deriving DecidableEq

namespace OperationKind

def all : List OperationKind := [.list, .create, .search, .find, .update, .patch, .delete]

/-- What is done with many entities goes by their plural. -/
def subject (names : Names) : OperationKind → String
  | .list | .search => names.plural
  | .create | .find | .update | .patch | .delete => names.model

def id (names : Names) : OperationKind → String
  | .list => "get" ++ names.plural
  | .create => "create" ++ names.model
  | .search => "search" ++ names.plural
  | .find => "get" ++ names.model ++ "ById"
  | .update => "update" ++ names.model
  | .patch => "patch" ++ names.model
  | .delete => "delete" ++ names.model

variable {model other : String} {kind kind' : OperationKind}

/-- The first letter of an identifier tells what is done, with the last where it is got by id; what is left is the
subject. -/
theorem id_inj (h : kind.id (.ofModel model) = kind'.id (.ofModel other)) :
    kind = kind' ∧ kind.subject (.ofModel model) = kind.subject (.ofModel other) := by
  have hplural := Identifier.getLast?_plural
  have hkind : kind = kind' := by
    have hfirst := congrArg (fun s => s.toList.head?) h
    have hlast := congrArg (fun s => s.toList.getLast?) h
    cases kind <;> cases kind' <;> simp [id, Names.ofModel, List.getLast?_cons, hplural] at hfirst hlast ⊢
  subst hkind
  refine ⟨rfl, ?_⟩
  cases kind <;> simpa [id, subject] using h

end OperationKind

end OpenApi

open OpenApi (Operation OperationKind)

namespace Entity

variable {entity other : Entity}

def operationIds (entity : Entity) : List String := entity.operations.map Operation.operationId

theorem operationIds_eq (entity : Entity) :
    entity.operationIds = OperationKind.all.map (OperationKind.id (.ofModel entity.name)) := rfl

/-- An entity by itself has an identifier for every kind of operation. -/
theorem nodup_operationIds_self (entity : Entity) : entity.operationIds.Nodup := by
  rw [operationIds_eq]
  have hall : OperationKind.all.Nodup := by decide
  exact hall.map fun kind kind' hid => (OperationKind.id_inj hid).1

/-- Of two entities with different names, both are listed and searched under one identifier just when they have
one plural, and nothing else that can be done with them has one. -/
theorem disjoint_operationIds_iff (hnames : entity.name ≠ other.name) :
    entity.operationIds.Disjoint other.operationIds ↔ plural entity.name ≠ plural other.name := by
  rw [operationIds_eq, operationIds_eq]
  constructor
  · intro hdisjoint hplural
    have hlist : OperationKind.list.id (.ofModel entity.name) = OperationKind.list.id (.ofModel other.name) := by
      rw [OperationKind.id, OperationKind.id, Names.ofModel, Names.ofModel, hplural]
    refine hdisjoint (List.mem_map_of_mem List.mem_cons_self) ?_
    rw [hlist]
    exact List.mem_map_of_mem List.mem_cons_self
  · intro hplural id hid hother
    obtain ⟨kind, -, rfl⟩ := List.mem_map.1 hid
    obtain ⟨kind', -, hsame⟩ := List.mem_map.1 hother
    obtain ⟨rfl, hsubject⟩ := OperationKind.id_inj hsame
    cases kind' with
    | list | search => exact hplural hsubject.symm
    | create | find | update | patch | delete => exact hnames hsubject.symm

end Entity

section Entities

variable {entities : List Entity}

/-- Entities at different paths have different identifiers just when they have different plurals. -/
theorem nodup_operationIds (hdirectories : (entities.map Entity.directory).Nodup) :
    (entities.flatMap Entity.operationIds).Nodup ↔ (entities.map fun entity => plural entity.name).Nodup := by
  rw [List.Nodup, List.pairwise_map] at hdirectories
  have hnames : entities.Pairwise fun entity other => entity.name ≠ other.name :=
    hdirectories.imp fun hdirectory hname => hdirectory (by rw [Entity.directory, hname, Entity.directory])
  rw [List.nodup_flatMap, List.Nodup, List.pairwise_map]
  constructor
  · rintro ⟨-, hdisjoint⟩
    exact (hnames.and hdisjoint).imp fun h => (Entity.disjoint_operationIds_iff h.1).1 h.2
  · intro hplurals
    exact ⟨fun entity _ => entity.nodup_operationIds_self,
      (hnames.and hplurals).imp fun h => (Entity.disjoint_operationIds_iff h.1).2 h.2⟩

/-- And these they have unless one is named with an `Ey` and the other with an `Eie` at the end. -/
theorem nodup_plurals_iff (hdirectories : (entities.map Entity.directory).Nodup) :
    (entities.map fun entity => plural entity.name).Nodup ↔
      ∀ stem : String, ¬(stem ++ "Ey" ∈ entities.map Entity.name ∧ stem ++ "Eie" ∈ entities.map Entity.name) := by
  constructor
  · rintro hplurals stem ⟨hey, heie⟩
    obtain ⟨entity, hentity, hname⟩ := List.mem_map.1 hey
    obtain ⟨other, hother, hname'⟩ := List.mem_map.1 heie
    have hclash : plural entity.name = plural other.name :=
      (Identifier.plural_clash_iff.2 (Or.inl ⟨stem, hname, hname'⟩)).1
    obtain rfl := List.inj_on_of_nodup_map hplurals hentity hother hclash
    rw [hname] at hname'
    simp [← String.toList_inj] at hname'
  · intro hnames
    rw [List.nodup_map_iff_inj_on (hdirectories.of_map _)]
    intro entity hentity other hother hplural
    by_contra hne
    have hdirectory : entity.directory ≠ other.directory := fun hsame =>
      hne (List.inj_on_of_nodup_map hdirectories hentity hother hsame)
    rcases Identifier.plural_clash_iff.1 ⟨hplural, hdirectory⟩ with ⟨stem, hey, heie⟩ | ⟨stem, hey, heie⟩
    · exact hnames stem ⟨hey ▸ List.mem_map_of_mem hentity, heie ▸ List.mem_map_of_mem hother⟩
    · exact hnames stem ⟨hey ▸ List.mem_map_of_mem hother, heie ▸ List.mem_map_of_mem hentity⟩

end Entities

namespace PublishedApi

/-- What identifies each operation of a document. -/
def operationIds (document : Json) : List (Option Json) :=
  (operations document).map fun operation => operation.get? "operationId"

theorem operationIds_of_prevailing {document : Json} {entities : List Entity}
    (h : List.Forall₂ Operation.Prevails (entities.flatMap Entity.operations) (operations document)) :
    operationIds document = (entities.flatMap Entity.operationIds).map fun id => some (.string id) := by
  have hids : operationIds document = (entities.flatMap Entity.operations).map fun operation =>
      some (.string operation.operationId) :=
    map_eq_map_of_forall₂ h fun _ _ hvalue => hvalue.operationId
  rw [hids, List.map_flatMap, List.map_flatMap]
  rfl

end PublishedApi

section Document

variable {schema : Schema} {policy : OwnerPolicy} {layout : Layout} {artifacts : List Artifact}

theorem operationIds_of_generate (h : schema.generate policy layout = .ok artifacts) :
    ∃ document, Artifact.published? layout artifacts = some document ∧
      PublishedApi.operationIds document =
        (schema.speakers.flatMap Entity.operationIds).map fun id => some (.string id) := by
  obtain ⟨document, hread, -, hprevails⟩ := prevailing_of_generate h
  exact ⟨document, hread, PublishedApi.operationIds_of_prevailing hprevails⟩

/-- The identifiers in the published document are those of the entities that have the last word at their paths.
They differ exactly when no two of these are named with an `Ey` and an `Eie` after one stem: such names have one
plural, but in the small letters of the paths `ey` is a vowel with a `y` and their plurals differ. -/
theorem operationIds_nodup_iff (h : schema.generate policy layout = .ok artifacts) :
    ∃ document, Artifact.published? layout artifacts = some document ∧
      PublishedApi.operationIds document =
        (schema.speakers.flatMap Entity.operationIds).map (fun id => some (.string id)) ∧
      ((PublishedApi.operationIds document).Nodup ↔ ∀ stem : String,
        ¬(stem ++ "Ey" ∈ schema.speakers.map Entity.name ∧
          stem ++ "Eie" ∈ schema.speakers.map Entity.name)) := by
  obtain ⟨document, hread, hids⟩ := operationIds_of_generate h
  refine ⟨document, hread, hids, ?_⟩
  rw [hids, Json.nodup_strings_iff, nodup_operationIds schema.nodup_speakers,
    nodup_plurals_iff schema.nodup_speakers]

end Document

theorem operationIds_nodup_for_people :
    ∃ artifacts document, people.generate .standard .standard = .ok artifacts ∧
      Artifact.published? .standard artifacts = some document ∧
      (PublishedApi.operationIds document).Nodup := by
  obtain ⟨artifacts, hgenerate⟩ := Schema.generate_of_resolve people_resolve .standard .standard
  obtain ⟨document, hread, -, hiff⟩ := operationIds_nodup_iff hgenerate
  refine ⟨artifacts, document, hgenerate, hread, hiff.2 ?_⟩
  rintro stem ⟨hey, -⟩
  have hlast : ∀ name ∈ people.speakers.map Entity.name, name.toList.getLast? ≠ some 'y' := by decide
  exact hlast _ hey (by simp)

/-- Two names with one plural, though not in small letters. -/
def keyPair : Schema where
  entities := [
    { name := "KEy", tableName := "key", fields := [], indexes := [], relations := [] },
    { name := "KEie", tableName := "keie", fields := [], indexes := [], relations := [] }]
  api := .standard

theorem not_operationIds_nodup_for_keyPair :
    ∃ artifacts document, keyPair.generate .standard .standard = .ok artifacts ∧
      Artifact.published? .standard artifacts = some document ∧
      ¬(PublishedApi.operationIds document).Nodup := by
  have hresolve : keyPair.resolve = .ok (keyPair.entities.map (⟨·, []⟩)) := by decide
  obtain ⟨artifacts, hgenerate⟩ := Schema.generate_of_resolve hresolve .standard .standard
  obtain ⟨document, hread, hids⟩ := operationIds_of_generate hgenerate
  refine ⟨artifacts, document, hgenerate, hread, fun hnodup => ?_⟩
  rw [hids] at hnodup
  have hshared : ¬(keyPair.speakers.flatMap Entity.operationIds).Nodup := by decide
  exact hshared (hnodup.of_map _)

end EntityForge
