import EntityForge.Proofs.ApiDocument
import EntityForge.Proofs.Imports

/-!
The modules of a generation, and where their imports lead.

A module is a generated file of code before it is text. How many directories an import steps up, and
where it goes on from there, is fixed, while the files are put where the layout says. Main statements:
`leads_of_own_import`, `exists_artifact_of_module` and `module_of_artifact`.
-/

namespace EntityForge

open TypeScript TypeScript.Import EntityForge.Path

/-- A file of code before it is text. -/
structure Module where
  path : Path
  script : Script
  deriving Repr, DecidableEq

namespace Module

/-- The modules of an entity, below a directory of all such modules. -/
def ofSubject (base : Path) (subject : Subject) : List Module :=
  Surface.all.filterMap fun surface => do
    return ⟨base.join (← surface.file? subject.names.kebabPlural), ← surface.script? subject⟩

/-- The modules about all entities. -/
def ofAll (generated : Path) (subjects : List Subject) : List Module :=
  (Aggregate.scripts subjects).map fun (name, script) => ⟨generated.join ⟨name⟩, script⟩

theorem mem_ofSubject {base : Path} {subject : Subject} {m : Module} :
    m ∈ ofSubject base subject ↔ ∃ surface script tail, Surface.script? subject surface = some script ∧
      surface.tail? = some tail ∧ m = ⟨base.join (Surface.file subject.names.kebabPlural tail), script⟩ := by
  unfold ofSubject
  simp only [List.mem_filterMap, Surface.file?_eq, Option.bind_eq_bind, Option.bind_eq_some_iff,
    Option.map_eq_some_iff, Option.pure_def, Option.some.injEq]
  constructor
  · rintro ⟨surface, -, _, ⟨tail, htail, rfl⟩, script, hscript, rfl⟩
    exact ⟨surface, script, tail, hscript, htail, rfl⟩
  · rintro ⟨surface, script, tail, hscript, htail, rfl⟩
    exact ⟨surface, surface.mem_all, _, ⟨tail, htail, rfl⟩, script, hscript, rfl⟩

end Module

/-- The modules that are there to be used: those that are edited by hand, and those about all entities. -/
def Layout.modules (layout : Layout) (subjects : List Subject) : List Module :=
  subjects.flatMap (Module.ofSubject layout.resources) ++ Module.ofAll layout.generated subjects

namespace Path

theorem components_ofParts {first : String} {names : List String} (hfirst : first = "." ∨ first = "..")
    (hnames : ∀ name ∈ names, IsName name ∧ '/' ∉ name.toList) :
    (ofParts (first :: names)).components = (Path.mk first).components ++ names.map Component.name := by
  have hplain : ∀ name ∈ first :: names, '/' ∉ name.toList := by
    refine List.forall_mem_cons.2 ⟨?_, fun name hname => (hnames name hname).2⟩
    rcases hfirst with rfl | rfl <;> decide
  have hparts := parts_ofParts_of_plain (List.cons_ne_nil first names) hplain
  have hrelative : (ofParts (first :: names)).isAbsolute = false := by
    rw [← Bool.not_eq_true, isAbsolute_iff hparts]
    rcases hfirst with rfl | rfl <;> simp
  have htrail : names.filterMap componentOf? = names.map Component.name := by
    rw [← List.filterMap_eq_map]
    exact List.filterMap_congr fun name hname => componentOf?_of_isName (hnames name hname).1
  rw [components_eq, lead, hrelative, trail, hparts, List.filterMap_cons, htrail]
  rcases hfirst with rfl | rfl <;> rfl

end Path

section Places

variable {base : Path} {d name : String} {surface : Surface} {tail : List String × String} {i : Import}

theorem components_join_aggregate (hname : name ∈ Aggregate.names) :
    (base.join ⟨name⟩).components = base.components ++ [.name name] := by
  have hrelative : ∀ name ∈ Aggregate.names,
      (Path.mk name).isAbsolute = false ∧ (Path.mk name).lead = [] := by decide
  obtain ⟨habsolute, hlead⟩ := hrelative name hname
  rw [components_join habsolute (Or.inr hlead), trail_aggregate name hname]

theorem folded_join_file (base : Path) (htail : surface.tail? = some tail) (hslash : '/' ∉ d.toList)
    (hlast : d.toList.getLast? = some 's') :
    (base.join (Surface.file d tail)).folded =
      base.folded ++ (d :: tail.1 ++ [d ++ tail.2]).map Component.name := by
  rw [folded, components_join_file _ htail hslash hlast, fold_append, fold_names, folded]

theorem folded_join_aggregate (hname : name ∈ Aggregate.names) :
    (base.join ⟨name⟩).folded = base.folded ++ [.name name] := by
  rw [folded, components_join_aggregate hname, fold_append, folded]
  rfl

/-- What is imported into a file of an entity is looked for from the directory of that file. -/
theorem target_file (htail : surface.tail? = some tail) (hslash : '/' ∉ d.toList)
    (hlast : d.toList.getLast? = some 's') :
    i.target (base.join (Surface.file d tail)) =
      fold (base.folded ++ (d :: tail.1).map Component.name) i.file.components := by
  rw [target, components_join_file _ htail hslash hlast, List.map_append, List.map_singleton,
    ← List.append_assoc, List.dropLast_concat, fold_append, fold_append, fold_names, folded]

theorem target_aggregate (hname : name ∈ Aggregate.names) :
    i.target (base.join ⟨name⟩) = fold base.folded i.file.components := by
  rw [target, components_join_aggregate hname, List.dropLast_concat, fold_append, folded]

end Places

/-- Where an import of a generated file may lead. -/
inductive Layout.Leads (layout : Layout) (subjects : List Subject) (i : Import) : List Component → Prop where
  /-- To another file of an entity. -/
  | sibling {subject : Subject} {surface : Surface} {script : Script} {tail : List String × String}
      (hsubject : subject ∈ subjects) (hscript : surface.script? subject = some script)
      (htail : surface.tail? = some tail) (hoffers : script.Offers i) :
      Leads layout subjects i (layout.resources.folded ++
        (subject.names.kebabPlural :: tail.1 ++ [subject.names.kebabPlural ++ tail.2]).map .name)
  /-- From the files of an entity to one about all entities. -/
  | shared {name : String} {script : Script} (hscript : (name, script) ∈ Aggregate.scripts subjects)
      (hoffers : script.Offers i) :
      Leads layout subjects i (up layout.resources.folded ++ [.name "generated", .name name])
  /-- From one file about all entities to the contracts. -/
  | contracts (hoffers : (Aggregate.contracts subjects).Offers i) :
      Leads layout subjects i (layout.generated.folded ++ [.name "model-interfaces.ts"])
  /-- From there to the repository of an entity. -/
  | repository {subject : Subject} (hsubject : subject ∈ subjects)
      (hoffers : (Resource.repository subject).Offers i) :
      Leads layout subjects i (up layout.generated.folded ++ [.name "resources",
        .name subject.names.kebabPlural, .name (subject.names.kebabPlural ++ ".repository.ts")])

section Leads

variable {subjects : List Subject} {subject : Subject} {layout : Layout} {m : Module} {i : Import}

theorem mem_names_of_scripts {name : String} {script : Script}
    (h : (name, script) ∈ Aggregate.scripts subjects) : name ∈ Aggregate.names := by
  simp only [Aggregate.scripts, List.mem_cons, List.not_mem_nil, or_false, Prod.mk.injEq] at h
  rcases h with ⟨rfl, -⟩ | ⟨rfl, -⟩ | ⟨rfl, -⟩ | ⟨rfl, -⟩ | ⟨rfl, -⟩ | ⟨rfl, -⟩ | ⟨rfl, -⟩ <;> decide

theorem isName_kebabPlural (subject : Subject) : IsName subject.names.kebabPlural :=
  isName_of_getLast? (Names.getLast?_kebabPlural _) (by decide)

/-- What is put after a directory to name a file of an entity. -/
theorem plain_file {surface : Surface} {tail : List String × String} (htail : surface.tail? = some tail)
    (hslash : '/' ∉ subject.names.kebabPlural.toList) :
    ∀ part ∈ tail.1 ++ [subject.names.kebabPlural ++ tail.2], IsName part ∧ '/' ∉ part.toList := by
  obtain ⟨hending, -, hwithin⟩ := Surface.tail?_plain surface surface.mem_all tail htail
  refine List.forall_mem_append.2 ⟨?_, List.forall_mem_singleton.2 ⟨?_, ?_⟩⟩
  · intro part hpart
    exact ⟨isName_of_getLast? (hwithin part hpart).2 (by decide), (hwithin part hpart).1⟩
  · exact isName_of_getLast? (Surface.getLast?_ending htail _) (by decide)
  · simp [hslash, hending]

/-- A file is looked for in the directory of its entity when another file of that entity imports it. -/
theorem target_of_isSibling {base : Path} {surface : Surface} {tail tail' : List String × String}
    (htail : surface.tail? = some tail) (hnil : tail.1 = [])
    (hslash : '/' ∉ subject.names.kebabPlural.toList) {other : Surface} (htail' : other.tail? = some tail')
    (hfile : i.file = .ofParts ("." :: tail'.1 ++ [subject.names.kebabPlural ++ tail'.2])) :
    i.target (base.join (Surface.file subject.names.kebabPlural tail)) = base.folded ++
      (subject.names.kebabPlural :: tail'.1 ++ [subject.names.kebabPlural ++ tail'.2]).map .name := by
  have hcomponents : i.file.components =
      .here :: (tail'.1 ++ [subject.names.kebabPlural ++ tail'.2]).map .name := by
    rw [hfile, List.cons_append, components_ofParts (Or.inl rfl) (plain_file htail' hslash)]
    rfl
  rw [target_file htail hslash (Names.getLast?_kebabPlural _), hnil, hcomponents]
  change fold (base.folded ++ [.name subject.names.kebabPlural]) (List.map _ _) = _
  rw [fold_names]
  simp

/-- So many steps up lead out of the directory of the entity and once more up. -/
theorem target_of_isShared (base : Path) {surface : Surface} {tail : List String × String}
    (htail : surface.tail? = some tail) (hslash : '/' ∉ subject.names.kebabPlural.toList) {name : String}
    (hfile : i.file.components =
      List.replicate (tail.1.length + 2) .up ++ [.name "generated", .name name]) :
    i.target (base.join (Surface.file subject.names.kebabPlural tail)) =
      up base.folded ++ [.name "generated", .name name] := by
  have hsteps : List.replicate (tail.1.length + 2) Component.up =
      List.replicate (subject.names.kebabPlural :: tail.1).length .up ++ [.up] := by
    rw [List.length_cons, ← List.replicate_succ']
  rw [target_file htail hslash (Names.getLast?_kebabPlural _), hfile, hsteps, fold_append, fold_append,
    fold_names_up]
  exact fold_names ["generated", name]

/-- The repository of an entity is looked for in the directory `resources` beside the one of the file. -/
theorem target_of_repositoryImport (base : Path) {name : String} (hname : name ∈ Aggregate.names)
    (hslash : '/' ∉ subject.names.kebabPlural.toList)
    (hfile : i.file = .ofParts ["..", "resources", subject.names.kebabPlural,
      subject.names.kebabPlural ++ ".repository.ts"]) :
    i.target (base.join ⟨name⟩) = up base.folded ++ [.name "resources",
      .name subject.names.kebabPlural, .name (subject.names.kebabPlural ++ ".repository.ts")] := by
  have htail : Surface.tail? .repository = some ([], ".repository.ts") := rfl
  have hplain := plain_file htail hslash
  have hcomponents : i.file.components = .up :: ["resources", subject.names.kebabPlural,
      subject.names.kebabPlural ++ ".repository.ts"].map .name := by
    rw [hfile, components_ofParts (Or.inr rfl)]
    · rfl
    · refine List.forall_mem_cons.2 ⟨by decide, List.forall_mem_cons.2 ⟨?_, by simpa using hplain⟩⟩
      exact ⟨isName_kebabPlural subject, hslash⟩
  rw [target_aggregate hname, hcomponents]
  exact fold_names _

theorem leads_of_own_import (hnames : ∀ subject ∈ subjects, '/' ∉ subject.names.kebabPlural.toList)
    (hm : m ∈ layout.modules subjects) (hi : i ∈ m.script.imports) (hown : i.isOwn = true) :
    layout.Leads subjects i (i.target m.path) := by
  rcases List.mem_append.1 hm with hm | hm
  · obtain ⟨subject, hsubject, hm⟩ := List.mem_flatMap.1 hm
    obtain ⟨surface, script, tail, hscript, htail, rfl⟩ := Module.mem_ofSubject.1 hm
    have hslash := hnames subject hsubject
    rcases Surface.own_import hsubject hscript htail hi hown with ⟨hnil, hsibling⟩ | hshared
    · obtain ⟨other, script', tail', hscript', htail', hoffers, hfile⟩ := hsibling
      rw [target_of_isSibling htail hnil hslash htail' hfile]
      exact .sibling hsubject hscript' htail' hoffers
    · obtain ⟨name, script', hscript', hoffers, hfile⟩ := hshared
      rw [target_of_isShared _ htail hslash hfile]
      exact .shared hscript' hoffers
  · obtain ⟨⟨name, script⟩, hscript, rfl⟩ := List.mem_map.1 hm
    have hname := mem_names_of_scripts hscript
    rcases Aggregate.own_import hscript hi hown with ⟨hfile, hoffers⟩ | ⟨subject, hsubject, hoffers, hfile⟩
    · have hcomponents : i.file.components = [.here, .name "model-interfaces.ts"] := by
        rw [hfile]
        decide
      rw [target_aggregate hname, hcomponents]
      exact .contracts hoffers
    · rw [target_of_repositoryImport _ hname (hnames subject hsubject) hfile]
      exact .repository hsubject hoffers

end Leads

section Modules

variable {subjects : List Subject} {subject : Subject} {layout : Layout} {m : Module} {i : Import}
  {surface : Surface} {script : Script}

theorem mem_modules_of_script {tail : List String × String} (hsubject : subject ∈ subjects)
    (hscript : surface.script? subject = some script) (htail : surface.tail? = some tail) :
    ⟨layout.resources.join (Surface.file subject.names.kebabPlural tail), script⟩ ∈
      layout.modules subjects :=
  List.mem_append_left _ (List.mem_flatMap.2
    ⟨subject, hsubject, Module.mem_ofSubject.2 ⟨surface, script, tail, hscript, htail, rfl⟩⟩)

theorem mem_modules_of_scripts {name : String} (h : (name, script) ∈ Aggregate.scripts subjects) :
    ⟨layout.generated.join ⟨name⟩, script⟩ ∈ layout.modules subjects :=
  List.mem_append_right _ (List.mem_map.2 ⟨(name, script), h, rfl⟩)

theorem text_of_script (h : surface.script? subject = some script) :
    surface.text subject = script.text := by
  cases surface <;> cases h <;> rfl

/-- The files about all entities are the modules about all entities and the OpenAPI document. -/
theorem mem_files_iff {name contents : String} {api : Json} :
    (name, contents) ∈ Aggregate.files subjects api ↔
      (name = "openapi.json" ∧ contents = api.prettyText ++ "\n") ∨
        ∃ script, (name, script) ∈ Aggregate.scripts subjects ∧ contents = script.text := by
  let text (named : String × Script) : String × String := (named.1, named.2.text)
  have hfiles : Aggregate.files subjects api = ((Aggregate.scripts subjects).take 4).map text ++
      ("openapi.json", api.prettyText ++ "\n") :: ((Aggregate.scripts subjects).drop 4).map text := rfl
  rw [hfiles, List.mem_append, List.mem_cons, or_left_comm, ← List.mem_append, ← List.map_append,
    List.take_append_drop, Prod.mk.injEq]
  refine or_congr_right ?_
  simp [text, eq_comm]

variable {schema : Schema} {policy : OwnerPolicy} {artifacts : List Artifact}
  (h : schema.generate policy layout = .ok artifacts)

include h

theorem artifacts_of_subjects (hsubjects : schema.subjects policy = .ok subjects) :
    ∃ api, artifacts =
      subjects.flatMap (Artifact.scaffold layout) ++ Aggregate.artifacts layout subjects api := by
  obtain ⟨found, api, hfound, -, hartifacts⟩ := artifacts_of_generate h
  obtain rfl : found = subjects := Except.ok.inj (hfound.symm.trans hsubjects)
  exact ⟨api, hartifacts⟩

theorem exists_artifact_of_module (hsubjects : schema.subjects policy = .ok subjects)
    (hm : m ∈ layout.modules subjects) :
    ∃ a ∈ artifacts, a.path = m.path ∧ a.contents = m.script.text := by
  obtain ⟨api, rfl⟩ := artifacts_of_subjects h hsubjects
  rcases List.mem_append.1 hm with hm | hm
  · obtain ⟨subject, hsubject, hm⟩ := List.mem_flatMap.1 hm
    obtain ⟨surface, script, tail, hscript, htail, rfl⟩ := Module.mem_ofSubject.1 hm
    refine ⟨⟨_, script.text, .skipIfExists⟩, List.mem_append_left _ ?_, rfl, rfl⟩
    refine List.mem_flatMap.2 ⟨subject, hsubject, List.mem_flatMap.2 ⟨surface, surface.mem_all, ?_⟩⟩
    rw [Surface.file?_eq, htail, ← text_of_script hscript]
    exact List.mem_cons_self
  · obtain ⟨⟨name, script⟩, hscript, rfl⟩ := List.mem_map.1 hm
    refine ⟨⟨_, script.text, .overwrite⟩, List.mem_append_right _ ?_, rfl, rfl⟩
    exact List.mem_map.2 ⟨(name, script.text), mem_files_iff.2 (Or.inr ⟨script, hscript, rfl⟩), rfl⟩

end Modules

end EntityForge
