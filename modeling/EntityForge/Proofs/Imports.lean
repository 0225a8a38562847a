import EntityForge.Proofs.Collision

/-!
What the generated modules import.

An import names a file as it is seen from the directory of the file that it stands in. The libraries of
the application that the code is made for are imported by relative paths too, but out of directories
that nothing is generated in; every other relative import is of a generated file, either of one about
the same entity or of one about all entities. Main statements: `Surface.own_import` and
`Aggregate.own_import`.
-/

namespace EntityForge

namespace Path

/-- The directory above the place that some components lead to. -/
def up (place : List Component) : List Component :=
  match place.getLast? with
  | none | some .up => place ++ [.up]
  | some .root => place
  | some .here | some (.name _) => place.dropLast

def step (place : List Component) : Component → List Component
  | .root => [.root]
  | .here => place
  | .up => up place
  | .name text => place ++ [.name text]

/-- Where some components lead from a place; a step up takes back the name before it. -/
def fold (place components : List Component) : List Component := components.foldl step place

def folded (path : Path) : List Component := fold [] path.components

section fold

variable {place : List Component}

theorem fold_append (first second : List Component) :
    fold place (first ++ second) = fold (fold place first) second :=
  List.foldl_append

theorem fold_names (names : List String) :
    fold place (names.map Component.name) = place ++ names.map Component.name := by
  induction names generalizing place with
  | nil => simp [fold]
  | cons name names ih =>
    change fold (place ++ [.name name]) (names.map Component.name) = _
    rw [ih]
    simp

theorem up_concat_name (name : String) : up (place ++ [.name name]) = place := by
  simp [up]

/-- As many steps up as there are names lead back. -/
theorem fold_names_up (names : List String) :
    fold (place ++ names.map Component.name) (List.replicate names.length .up) = place := by
  induction names using List.reverseRecOn with
  | nil => simp [fold]
  | append_singleton names name ih =>
    rw [List.map_append, List.map_singleton, ← List.append_assoc, List.length_append,
      List.length_singleton, List.replicate_succ]
    change fold (up (place ++ names.map Component.name ++ [.name name])) _ = place
    rw [up_concat_name, ih]

end fold

end Path

namespace TypeScript

namespace Import

@[simp] theorem source_named (imported : List String) (source : String) :
    (Import.named imported source).source = source := rfl

@[simp] theorem imported_named (imported : List String) (source : String) :
    (Import.named imported source).imported = imported := rfl

/-- The file that is imported, as it is seen from the file that imports it. -/
def file (i : Import) : Path := ⟨i.source ++ ".ts"⟩

def isRelative (i : Import) : Bool :=
  i.file.parts.head? == some "." || i.file.parts.head? == some ".."

/-- The directories of the libraries, which come with the application. -/
def libraries : List String := ["lib", "middlewares", "decorators"]

/-- The first directory that is named is one of a library. -/
def isOfLibrary (i : Import) : Bool :=
  (i.file.parts.find? fun part => part != "." && part != "..").any libraries.contains

/-- The import is of a file that is to be generated too. -/
def isOwn (i : Import) : Bool := i.isRelative && !i.isOfLibrary

/-- Where the file is that is imported into the one at `path`. -/
def target (i : Import) (path : Path) : List Path.Component :=
  Path.fold [] (path.components.dropLast ++ i.file.components)

theorem file_named (imported : List String) (source : String) :
    (Import.named imported source).file = ⟨source ++ ".ts"⟩ := rfl

theorem file_eq_ofParts_iff {i : Import} {parts : List String} :
    i.file = .ofParts parts ↔
      i.source.toList ++ ".ts".toList = joinSlash (parts.map String.toList) := by
  rw [file, Path.ofParts, Path.mk.injEq, ← String.toList_inj, String.toList_append,
    @String.toList_ofList (joinSlash _)]

end Import

namespace Script

/-- The module exports all that is imported by name. -/
def Offers (script : Script) (i : Import) : Prop := ∀ name ∈ i.imported, name ∈ script.exports

theorem mem_exports {script : Script} {d : Declaration} (h : .declaration d ∈ script.items) :
    d.name ∈ script.exports :=
  List.mem_map_of_mem (List.mem_filterMap.2 ⟨_, h, rfl⟩)

theorem offers_singleton {script : Script} {name source : String} (h : name ∈ script.exports) :
    script.Offers (.named [name] source) := by
  simpa [Offers, Import.imported] using h

end Script

theorem mem_spaced {items : List Item} {item : Item} (h : item ∈ items) : item ∈ spaced items := by
  unfold spaced
  induction items with
  | nil => exact h
  | cons first rest ih =>
    cases rest with
    | nil => exact h
    | cons second rest =>
      rw [List.intersperse_cons_cons]
      rcases List.mem_cons.1 h with rfl | h
      · exact List.mem_cons_self
      · exact List.mem_cons_of_mem _ (List.mem_cons_of_mem _ (ih h))

end TypeScript

open TypeScript TypeScript.Import

namespace Aggregate

/-- The modules about all entities, by name. -/
def scripts (subjects : List Subject) : List (String × Script) := [
  ("model-interfaces.ts", contracts subjects),
  ("models.sequelize.ts", sequelize subjects),
  ("models.drizzle.ts", drizzle subjects),
  ("schema.graphql.ts", graphql subjects),
  ("model-types.enum.ts", modelTypes subjects),
  ("repository.service.ts", repositoryService subjects),
  ("common.regex.ts", patterns)]

variable {subjects : List Subject} {subject : Subject}

theorem mem_exports_contracts (h : subject ∈ subjects) :
    subject.entity.name ++ "Entity" ∈ (contracts subjects).exports := by
  refine Script.mem_exports (d := (Contract.of subject).declaration) ?_
  refine List.mem_cons_of_mem _ (List.mem_cons_of_mem _ (mem_spaced ?_))
  simp only [List.map_map, List.mem_map]
  exact ⟨subject, h, rfl⟩

theorem mem_exports_sequelize (h : subject ∈ subjects) :
    subject.entity.name ∈ (sequelize subjects).exports := by
  refine Script.mem_exports (d := (Sequelize.Model.of subject).declaration) ?_
  refine List.mem_append_left _ (mem_spaced ?_)
  simp only [List.map_map, List.mem_map]
  exact ⟨subject, h, rfl⟩

end Aggregate

namespace TypeScript.Import

/-- The import is of a file about the same entity. -/
def IsSibling (subject : Subject) (i : Import) : Prop :=
  ∃ (surface : Surface) (script : Script) (tail : List String × String),
    surface.script? subject = some script ∧ surface.tail? = some tail ∧ script.Offers i ∧
      i.file = .ofParts ("." :: tail.1 ++ [subject.names.kebabPlural ++ tail.2])

/-- The import is of a file about all entities, so many directories above. -/
def IsShared (subjects : List Subject) (height : Nat) (i : Import) : Prop :=
  ∃ (name : String) (script : Script), (name, script) ∈ Aggregate.scripts subjects ∧ script.Offers i ∧
    i.file.components = List.replicate height .up ++ [.name "generated", .name name]

theorem own_contractImport (imported : List String) :
    (Import.named imported "../../generated/model-interfaces").isOwn = true ∧
      (Import.named imported "../../generated/model-interfaces").file.components =
        List.replicate 2 .up ++ [.name "generated", .name "model-interfaces.ts"] := by
  rw [isOwn, isRelative, isOfLibrary, file_named]
  decide

theorem isShared_named {subjects : List Subject} {height : Nat} (name : String) (script : Script)
    {imported : List String} {source : String} (hscript : (name, script) ∈ Aggregate.scripts subjects)
    (hoffers : ∀ name ∈ imported, name ∈ script.exports)
    (hfile : (Path.mk (source ++ ".ts")).components =
      List.replicate height .up ++ [.name "generated", .name name]) :
    (Import.named imported source).IsShared subjects height :=
  ⟨name, script, hscript, hoffers, hfile⟩

end TypeScript.Import

namespace Resource

variable {subject : Subject} {subjects : List Subject} {i : Import}

theorem isSibling_dtoImport (hi : i ∈ Service.dtoImports subject.names) : i.IsSibling subject := by
  simp only [Service.dtoImports, List.mem_cons, List.not_mem_nil, or_false] at hi
  rcases hi with rfl | rfl | rfl
  · refine ⟨.createDto, _, _, rfl, rfl, Script.offers_singleton List.mem_cons_self, ?_⟩
    simp [file_eq_ofParts_iff, Service.dtoImport, joinSlash, toString]
  · refine ⟨.updateDto, _, _, rfl, rfl, Script.offers_singleton List.mem_cons_self, ?_⟩
    simp [file_eq_ofParts_iff, Service.dtoImport, joinSlash, toString]
  · refine ⟨.searchDto, _, _, rfl, rfl, Script.offers_singleton List.mem_cons_self, ?_⟩
    simp [file_eq_ofParts_iff, Service.dtoImport, joinSlash, toString]

theorem isSibling_of_controller (hi : i ∈ (Controller.script subject).imports)
    (hown : i.isOwn = true) : i.IsSibling subject := by
  simp only [Controller.script, List.mem_append, List.mem_cons, List.not_mem_nil, or_false] at hi
  rcases hi with (rfl | rfl | rfl | rfl | rfl | rfl | rfl | rfl | rfl) | hi
  iterate 7 exact absurd hown (by decide)
  · refine ⟨.service, _, _, rfl, rfl, Script.offers_singleton ?_, ?_⟩
    · exact Script.mem_exports (d := (Service.of subject).implementation) (mem_spaced (by simp))
    · simp [file_eq_ofParts_iff, joinSlash, toString]
  · refine ⟨.guard, _, _, rfl, rfl, ?_, ?_⟩
    · intro name hname
      have hcases : name = Guard.existsName subject.names.model ∨
          name = Guard.ownsName subject.names.model := by
        simpa using hname
      rcases hcases with rfl | rfl
      · exact Script.mem_exports (d := (Guard.of subject).existence) (mem_spaced (by simp))
      · exact Script.mem_exports (d := (Guard.of subject).ownership) (mem_spaced (by simp))
    · simp [file_eq_ofParts_iff, joinSlash, toString]
  · exact isSibling_dtoImport hi

variable (hsubject : subject ∈ subjects)

include hsubject

theorem isShared_contract {height : Nat} {source : String}
    (hfile : (Path.mk (source ++ ".ts")).components =
      List.replicate height .up ++ [.name "generated", .name "model-interfaces.ts"]) :
    (Import.named [subject.entity.name ++ "Entity"] source).IsShared subjects height :=
  isShared_named "model-interfaces.ts" (Aggregate.contracts subjects) List.mem_cons_self
    (List.forall_mem_singleton.2 (Aggregate.mem_exports_contracts hsubject)) hfile

theorem own_import_of_service (hi : i ∈ (Service.of subject).script.imports) (hown : i.isOwn = true) :
    i.IsSibling subject ∨ i.IsShared subjects 2 := by
  simp only [Service.script, List.mem_append, List.mem_cons, List.not_mem_nil, or_false] at hi
  rcases hi with (rfl | rfl | rfl | rfl | rfl | rfl) | hi
  iterate 2 exact absurd hown (by decide)
  · exact .inr (isShared_contract hsubject (by decide))
  · exact .inr (isShared_named "repository.service.ts" (Aggregate.repositoryService subjects)
      (by simp [Aggregate.scripts]) (List.forall_mem_singleton.2 List.mem_cons_self) (by decide))
  · exact .inr (isShared_named "common.regex.ts" Aggregate.patterns (by simp [Aggregate.scripts])
      (by decide) (by decide))
  · exact absurd hown (by decide)
  · exact .inl (isSibling_dtoImport hi)

theorem own_import_of_guard (hi : i ∈ (Guard.of subject).script.imports) (hown : i.isOwn = true) :
    i.IsSibling subject ∨ i.IsShared subjects 2 := by
  simp only [Guard.script, List.mem_cons, List.not_mem_nil, or_false] at hi
  rcases hi with rfl | rfl | rfl | rfl | rfl
  iterate 3 exact absurd hown (by decide)
  · exact .inr (isShared_contract hsubject (by decide))
  · refine .inl ⟨.repository, _, _, rfl, rfl, Script.offers_singleton ?_, ?_⟩
    · exact Script.mem_exports (d := constant subject.names.token _) (mem_spaced List.mem_cons_self)
    · simp [file_eq_ofParts_iff, joinSlash, Guard.of]

theorem own_import_of_repository (hi : i ∈ (repository subject).imports) (hown : i.isOwn = true) :
    i.IsShared subjects 2 := by
  simp only [repository, List.mem_cons, List.not_mem_nil, or_false] at hi
  rcases hi with rfl | rfl | rfl | rfl | rfl
  iterate 2 exact absurd hown (by decide)
  · exact isShared_contract hsubject (by decide)
  · exact isShared_named "models.sequelize.ts" (Aggregate.sequelize subjects) (by simp [Aggregate.scripts])
      (List.forall_mem_singleton.2 (Aggregate.mem_exports_sequelize hsubject)) (by decide)
  · exact absurd hown (by decide)

theorem own_import_of_dto {kind : DtoKind} (hi : i ∈ (Dto.of kind subject).script.imports)
    (hown : i.isOwn = true) : i.IsShared subjects 3 := by
  have hcontract : (Import.named [subject.entity.name ++ "Entity"]
      "../../../generated/model-interfaces").IsShared subjects 3 :=
    isShared_contract hsubject (by decide)
  cases kind with
  | create | update =>
    simp only [Dto.script, Dto.imports, Dto.of, List.mem_cons, List.not_mem_nil, or_false] at hi
    rcases hi with rfl | rfl
    · exact hcontract
    · exact absurd hown (by decide)
  | search =>
    simp only [Dto.script, Dto.imports, Dto.of, List.mem_cons, List.not_mem_nil, or_false] at hi
    rcases hi with rfl | rfl | rfl
    · exact hcontract
    · exact absurd hown (by decide)
    · exact isShared_named "common.regex.ts" Aggregate.patterns (by simp [Aggregate.scripts]) (by decide)
        (by decide)

end Resource

/-- Every generated file that a file of an entity imports is about all entities, or it is of the same entity
and is imported from within the entity's own directory. -/
theorem Surface.own_import {subject : Subject} {subjects : List Subject} (hsubject : subject ∈ subjects)
    {surface : Surface} {script : Script} {tail : List String × String}
    (hscript : surface.script? subject = some script) (htail : surface.tail? = some tail)
    {i : Import} (hi : i ∈ script.imports) (hown : i.isOwn = true) :
    tail.1 = [] ∧ i.IsSibling subject ∨ i.IsShared subjects (tail.1.length + 2) := by
  cases surface with
  | controller =>
    cases hscript
    cases htail
    exact .inl ⟨rfl, Resource.isSibling_of_controller hi hown⟩
  | service =>
    cases hscript
    cases htail
    exact (Resource.own_import_of_service hsubject hi hown).imp_left fun h => ⟨rfl, h⟩
  | guard =>
    cases hscript
    cases htail
    exact (Resource.own_import_of_guard hsubject hi hown).imp_left fun h => ⟨rfl, h⟩
  | repository =>
    cases hscript
    cases htail
    exact .inr (Resource.own_import_of_repository hsubject hi hown)
  | createDto | updateDto | searchDto =>
    cases hscript
    cases htail
    exact .inr (Resource.own_import_of_dto hsubject hi hown)
  | contract | sequelizeModel | sequelizeAssociations | drizzleTable | drizzleRelations | graphqlSdl
  | graphql | openApi => cases hscript

namespace Aggregate

variable {subjects : List Subject} {i : Import}

theorem file_repositoryImport (imported : List String) (d : String) :
    (Import.named imported s!"../resources/{d}/{d}.repository").file =
      .ofParts ["..", "resources", d, d ++ ".repository.ts"] := by
  simp [file_eq_ofParts_iff, joinSlash, toString]

theorem own_import_of_repositoryImports (hi : i ∈ repositoryImports subjects) :
    i.file = ⟨"./model-interfaces.ts"⟩ ∧ (contracts subjects).Offers i ∨
      ∃ subject ∈ subjects, (Resource.repository subject).Offers i ∧
        i.file = .ofParts ["..", "resources", subject.names.kebabPlural,
          subject.names.kebabPlural ++ ".repository.ts"] := by
  rcases List.mem_cons.1 hi with rfl | hi
  · refine .inl ⟨rfl, ?_⟩
    intro name hname
    obtain ⟨subject, hsubject, rfl⟩ := List.mem_map.1 hname
    exact mem_exports_contracts hsubject
  · obtain ⟨subject, hsubject, rfl⟩ := List.mem_map.1 hi
    refine .inr ⟨subject, hsubject, Script.offers_singleton ?_, ?_⟩
    · exact Script.mem_exports (d := constant subject.names.token _) (mem_spaced List.mem_cons_self)
    · exact file_repositoryImport _ _

/-- Every generated file that a file about all entities imports is the one of all contracts, or the
repository of an entity. -/
theorem own_import {name : String} {script : Script} (hscript : (name, script) ∈ scripts subjects)
    (hi : i ∈ script.imports) (hown : i.isOwn = true) :
    i.file = ⟨"./model-interfaces.ts"⟩ ∧ (contracts subjects).Offers i ∨
      ∃ subject ∈ subjects, (Resource.repository subject).Offers i ∧
        i.file = .ofParts ["..", "resources", subject.names.kebabPlural,
          subject.names.kebabPlural ++ ".repository.ts"] := by
  simp only [scripts, List.mem_cons, List.not_mem_nil, or_false, Prod.mk.injEq] at hscript
  rcases hscript with ⟨-, rfl⟩ | ⟨-, rfl⟩ | ⟨-, rfl⟩ | ⟨-, rfl⟩ | ⟨-, rfl⟩ | ⟨-, rfl⟩ | ⟨-, rfl⟩
  · cases hi
  · simp only [sequelize, List.mem_cons, List.not_mem_nil, or_false] at hi
    rcases hi with rfl | rfl <;> exact absurd hown (by decide)
  · simp only [drizzle, List.mem_cons, List.not_mem_nil, or_false] at hi
    rcases hi with rfl | rfl <;> exact absurd hown (by decide)
  · simp only [graphql, List.mem_cons] at hi
    rcases hi with rfl | rfl | hi
    iterate 2 exact absurd hown (by decide)
    exact own_import_of_repositoryImports hi
  · cases hi
  · simp only [repositoryService, List.mem_cons] at hi
    rcases hi with rfl | rfl | rfl | hi
    iterate 3 exact absurd hown (by decide)
    exact own_import_of_repositoryImports hi
  · cases hi

end Aggregate

end EntityForge
