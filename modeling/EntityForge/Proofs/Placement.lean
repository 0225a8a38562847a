import EntityForge.Generation
import EntityForge.Proofs.Names
import EntityForge.Proofs.Path
import EntityForge.Proofs.Resolution

/-!
Which paths a generation writes to.

They follow from the layout and from the names of the entities alone. The path of an entity's file says
the directory of the entity twice: once as a directory, and once at the start of the name of the file.
Main statements: `placements_of_generate` and `trail_file_inj`.
-/

namespace EntityForge

/-- What stands in the path of a surface's file besides the directory of the entity: directories within
that one, and the ending of the name. -/
def Surface.tail? : Surface → Option (List String × String)
  | .controller => some ([], ".controller.ts")
  | .service => some ([], ".service.ts")
  | .guard => some ([], ".guard.ts")
  | .repository => some ([], ".repository.ts")
  | .createDto => some (["dto"], ".create.dto.ts")
  | .updateDto => some (["dto"], ".update.dto.ts")
  | .searchDto => some (["dto"], ".search.dto.ts")
  | _ => none

namespace Surface

/-- The file of a surface in a directory, by what stands besides the directory. -/
def file (directory : String) (tail : List String × String) : Path :=
  .ofParts (directory :: tail.1 ++ [directory ++ tail.2])

theorem file?_eq (directory : String) (surface : Surface) :
    surface.file? directory = surface.tail?.map (file directory) := by
  cases surface <;>
    simp [file?, tail?, file, Path.ofParts, joinSlash, toString, ← String.toList_inj]

theorem mem_all (surface : Surface) : surface ∈ all := by
  cases surface <;> decide

theorem nodup_all : all.Nodup := by decide

/-- No ending is the ending of another one. -/
theorem tail?_of_suffix : ∀ s ∈ all, ∀ t ∈ all, ∀ x ∈ s.tail?, ∀ y ∈ t.tail?,
    x.2.toList <:+ y.2.toList → s = t := by decide

theorem tail?_plain : ∀ s ∈ all, ∀ x ∈ s.tail?, '/' ∉ x.2.toList ∧
    x.2.toList.getLast? = some 's' ∧
    ∀ part ∈ x.1, '/' ∉ part.toList ∧ part.toList.getLast? = some 'o' := by decide

section File

variable {directory last : String} {above : List String} {surface : Surface}
  {tail : List String × String}

theorem getLast?_ending (htail : surface.tail? = some tail) (directory : String) :
    (directory ++ tail.2).toList.getLast? = some 's' := by
  obtain ⟨-, hending, -⟩ := tail?_plain surface (mem_all surface) tail htail
  rw [String.toList_append, List.getLast?_append, hending]
  rfl

theorem parts_file (htail : surface.tail? = some tail)
    (hparts : (Path.mk directory).parts = above ++ [last]) :
    (file directory tail).parts =
      above ++ [last] ++ tail.1 ++ (above ++ [last ++ tail.2]) := by
  obtain ⟨hending, -, htailAbove⟩ := tail?_plain surface (mem_all surface) tail htail
  have hflat : tail.1.flatMap (fun part => (Path.mk part).parts) = tail.1 := by
    have hsingle (part : String) (hpart : part ∈ tail.1) : (Path.mk part).parts = [part] :=
      Path.parts_of_not_mem (htailAbove part hpart).1
    rw [List.flatMap_congr hsingle, List.flatMap_singleton']
  rw [file, Path.parts_ofParts (by simp), List.flatMap_append, List.flatMap_cons, hflat, hparts,
    List.flatMap_singleton, Path.parts_append hparts hending]

theorem trail_directory (hparts : (Path.mk directory).parts = above ++ [last])
    (hlast : last.toList.getLast? = some 's') :
    (Path.mk directory).trail = above.filterMap Path.componentOf? ++ [.name last] := by
  have hname : IsName last := isName_of_getLast? hlast (by decide)
  rw [Path.trail, hparts, List.filterMap_append]
  simp [Path.componentOf?_of_isName hname]

theorem trail_file (htail : surface.tail? = some tail)
    (hparts : (Path.mk directory).parts = above ++ [last])
    (hlast : last.toList.getLast? = some 's') :
    (file directory tail).trail = (Path.mk directory).trail ++ tail.1.map Path.Component.name ++
      above.filterMap Path.componentOf? ++ [.name (last ++ tail.2)] := by
  obtain ⟨-, -, htailAbove⟩ := tail?_plain surface (mem_all surface) tail htail
  have hwhole : IsName (last ++ tail.2) :=
    isName_of_getLast? (getLast?_ending htail last) (by decide)
  have habove : tail.1.filterMap Path.componentOf? = tail.1.map Path.Component.name := by
    rw [← List.filterMap_eq_map]
    refine List.filterMap_congr fun part hpart => ?_
    exact Path.componentOf?_of_isName (isName_of_getLast? (htailAbove part hpart).2 (by decide))
  rw [trail_directory hparts hlast, Path.trail, parts_file htail hparts]
  simp [habove, Path.componentOf?_of_isName hwhole,
    Path.componentOf?_of_isName (isName_of_getLast? hlast (by decide))]

end File

/-- The ending of a name says which surface it belongs to. -/
theorem surface_of_ending {s t : Surface} {x y : List String × String} (hs : s.tail? = some x)
    (ht : t.tail? = some y) {last last' : String} (h : last ++ x.2 = last' ++ y.2) : s = t := by
  have hsuffix : x.2.toList <:+ y.2.toList ∨ y.2.toList <:+ x.2.toList := by
    refine List.suffix_or_suffix_of_suffix (List.suffix_append last.toList x.2.toList) ?_
    rw [← String.toList_append, h, String.toList_append]
    exact List.suffix_append _ _
  rcases hsuffix with h | h
  · exact tail?_of_suffix s (mem_all s) t (mem_all t) x hs y ht h
  · exact (tail?_of_suffix t (mem_all t) s (mem_all s) y ht x hs h).symm

/-- Two files have the same trail just when they are of the same surface, and of directories with the same
trail. -/
theorem trail_file_inj {directory other : String} {s t : Surface} {x y : List String × String}
    (hdirectory : directory.toList.getLast? = some 's') (hother : other.toList.getLast? = some 's')
    (hs : s.tail? = some x) (ht : t.tail? = some y) :
    (file directory x).trail = (file other y).trail ↔
      s = t ∧ (Path.mk directory).trail = (Path.mk other).trail := by
  obtain ⟨above, last, hparts, hlast⟩ := Path.parts_of_getLast? hdirectory (by decide)
  obtain ⟨above', last', hparts', hlast'⟩ := Path.parts_of_getLast? hother (by decide)
  rw [trail_file hs hparts hlast, trail_file ht hparts' hlast', trail_directory hparts hlast,
    trail_directory hparts' hlast']
  constructor
  · intro h
    obtain ⟨hinit, hfinal⟩ := List.append_inj' h rfl
    have htext : last ++ x.2 = last' ++ y.2 := by simpa using hfinal
    have hsurface : s = t := surface_of_ending hs ht htext
    subst hsurface
    obtain rfl : x = y := Option.some.inj (hs.symm.trans ht)
    have hlength := congrArg List.length hinit
    simp only [List.length_append, List.length_map, List.length_singleton] at hlength
    obtain ⟨hfirst, -⟩ := List.append_inj' hinit (by omega)
    exact ⟨rfl, (List.append_inj' hfirst rfl).1⟩
  · rintro ⟨rfl, h⟩
    obtain rfl : x = y := Option.some.inj (hs.symm.trans ht)
    obtain ⟨habove, hname⟩ := List.append_inj' h rfl
    obtain rfl : last = last' := by simpa using hname
    rw [habove]

end Surface

/-- The names of the files about all entities. -/
def Aggregate.names : List String :=
  ["model-interfaces.ts", "models.sequelize.ts", "models.drizzle.ts", "schema.graphql.ts",
   "openapi.json", "model-types.enum.ts", "repository.service.ts", "common.regex.ts"]

/-- The directories of the entities, in the order of the schema. -/
def Schema.directories (schema : Schema) : List String :=
  schema.entities.map fun entity => (Names.ofModel entity.name).kebabPlural

/-- Where files go, and what is done with files that are there already: both copies of the files of each
directory, and then the files about all entities. -/
def Layout.placements (layout : Layout) (directories : List String) : List (Path × WritePolicy) :=
  directories.flatMap (fun directory =>
    (Surface.all.filterMap (Surface.file? directory)).flatMap fun file =>
      [(layout.resources.join file, .skipIfExists), (layout.reference.join file, .overwrite)]) ++
    Aggregate.names.map fun name => (layout.generated.join ⟨name⟩, .overwrite)

def Artifact.placement (artifact : Artifact) : Path × WritePolicy :=
  (artifact.path, artifact.policy)

theorem placements_scaffold (layout : Layout) (subject : Subject) :
    (Artifact.scaffold layout subject).map Artifact.placement =
      (Surface.all.filterMap (Surface.file? subject.names.kebabPlural)).flatMap fun file =>
        [(layout.resources.join file, .skipIfExists), (layout.reference.join file, .overwrite)] := by
  unfold Artifact.scaffold
  induction Surface.all with
  | nil => rfl
  | cons surface rest ih =>
    rw [List.flatMap_cons, List.map_append, ih]
    cases hfile : surface.file? subject.names.kebabPlural with
    | none => simp [hfile]
    | some file => simp [hfile, Artifact.copies, Artifact.placement]

theorem placements_aggregate (layout : Layout) (subjects : List Subject) (api : Json) :
    (Aggregate.artifacts layout subjects api).map Artifact.placement =
      Aggregate.names.map fun name => (layout.generated.join ⟨name⟩, .overwrite) := by
  rfl

theorem Schema.entities_of_subjects {schema : Schema} {policy : OwnerPolicy} {subjects : List Subject}
    (h : schema.subjects policy = .ok subjects) : subjects.map Subject.entity = schema.entities := by
  obtain ⟨resolved, hresolved, hmap⟩ := bind_eq_ok.1 h
  obtain rfl := pure_eq_ok.1 hmap
  rw [List.map_map, ← Schema.entities_of_resolve hresolved]
  rfl

/-- What a generation consists of: the files of each entity, and then the files about all of them. -/
theorem artifacts_of_generate {schema : Schema} {policy : OwnerPolicy} {layout : Layout}
    {artifacts : List Artifact} (h : schema.generate policy layout = .ok artifacts) :
    ∃ subjects api, schema.subjects policy = .ok subjects ∧ subjects.map Subject.entity = schema.entities ∧
      artifacts = subjects.flatMap (Artifact.scaffold layout) ++ Aggregate.artifacts layout subjects api := by
  obtain ⟨subjects, hsubjects, h⟩ := bind_eq_ok.1 h
  obtain ⟨api, -, h⟩ := bind_eq_ok.1 h
  have hsubjects := mapError_eq_ok.1 hsubjects
  exact ⟨subjects, api, hsubjects, Schema.entities_of_subjects hsubjects, (pure_eq_ok.1 h).symm⟩

/-- The files that are generated go where the layout and the names of the entities say. -/
theorem placements_of_generate {schema : Schema} {policy : OwnerPolicy} {layout : Layout}
    {artifacts : List Artifact} (h : schema.generate policy layout = .ok artifacts) :
    artifacts.map Artifact.placement = layout.placements schema.directories := by
  obtain ⟨subjects, api, -, hentities, rfl⟩ := artifacts_of_generate h
  rw [Layout.placements, Schema.directories, ← hentities, List.map_append, placements_aggregate,
    List.map_flatMap, List.flatMap_map, List.flatMap_map]
  simp only [placements_scaffold]
  rfl

/-- Both copies of the files of one directory. -/
theorem mem_placements_of_directory {layout : Layout} {directory : String} {path : Path}
    {policy : WritePolicy} :
    (path, policy) ∈ ((Surface.all.filterMap (Surface.file? directory)).flatMap fun file =>
        [(layout.resources.join file, .skipIfExists), (layout.reference.join file, .overwrite)]) ↔
      ∃ surface tail, Surface.tail? surface = some tail ∧
        (path = layout.resources.join (Surface.file directory tail) ∧ policy = .skipIfExists ∨
          path = layout.reference.join (Surface.file directory tail) ∧ policy = .overwrite) := by
  simp only [List.mem_flatMap, List.mem_filterMap, Surface.file?_eq, Option.map_eq_some_iff,
    List.mem_cons, List.not_mem_nil, or_false, Prod.mk.injEq]
  constructor
  · rintro ⟨file, ⟨surface, -, tail, htail, rfl⟩, h⟩
    exact ⟨surface, tail, htail, h⟩
  · rintro ⟨surface, tail, htail, h⟩
    exact ⟨_, ⟨surface, surface.mem_all, tail, htail, rfl⟩, h⟩

theorem mem_placements {layout : Layout} {directories : List String} {path : Path}
    {policy : WritePolicy} :
    (path, policy) ∈ layout.placements directories ↔
      (∃ directory ∈ directories, ∃ surface tail, Surface.tail? surface = some tail ∧
        (path = layout.resources.join (Surface.file directory tail) ∧ policy = .skipIfExists ∨
          path = layout.reference.join (Surface.file directory tail) ∧ policy = .overwrite)) ∨
      ∃ name ∈ Aggregate.names, path = layout.generated.join ⟨name⟩ ∧ policy = .overwrite := by
  unfold Layout.placements
  rw [List.mem_append, List.mem_flatMap]
  refine or_congr (exists_congr fun directory => and_congr_right fun _ => ?_) ?_
  · exact mem_placements_of_directory
  · simp [eq_comm]

/-- Where the generated files are, and what is done with files that are there already. -/
theorem exists_artifact_iff {schema : Schema} {policy : OwnerPolicy} {layout : Layout}
    {artifacts : List Artifact} (h : schema.generate policy layout = .ok artifacts) {path : Path}
    {action : WritePolicy} :
    (∃ artifact ∈ artifacts, artifact.path = path ∧ artifact.policy = action) ↔
      (path, action) ∈ layout.placements schema.directories := by
  rw [← placements_of_generate h, List.mem_map]
  simp only [Artifact.placement, Prod.mk.injEq]

/-- What is asked of all paths is asked of all directories, where a file passes exactly if its directory does,
and every file passes that is about no single entity. -/
theorem forall_path_iff {schema : Schema} {policy : OwnerPolicy} {layout : Layout}
    {artifacts : List Artifact} (h : schema.generate policy layout = .ok artifacts) {P : Path → Prop}
    {Q : String → Prop}
    (hfile : ∀ base ∈ [layout.resources, layout.reference], ∀ d ∈ schema.directories, ∀ surface tail,
      Surface.tail? surface = some tail → (P (base.join (Surface.file d tail)) ↔ Q d))
    (haggregate : ∀ name ∈ Aggregate.names, P (layout.generated.join ⟨name⟩)) :
    (∀ a ∈ artifacts, P a.path) ↔ ∀ d ∈ schema.directories, Q d := by
  constructor
  · intro hall d hd
    have htail : Surface.tail? .controller = some ([], ".controller.ts") := rfl
    have hmem : (layout.resources.join (Surface.file d ([], ".controller.ts")), WritePolicy.skipIfExists) ∈
        layout.placements schema.directories :=
      mem_placements.2 (Or.inl ⟨d, hd, .controller, _, htail, Or.inl ⟨rfl, rfl⟩⟩)
    obtain ⟨a, ha, hpath, -⟩ := (exists_artifact_iff h).2 hmem
    exact (hfile _ (by simp) d hd .controller _ htail).1 (hpath ▸ hall a ha)
  · intro hall a ha
    rcases mem_placements.1 ((exists_artifact_iff h).1 ⟨a, ha, rfl, rfl⟩) with
      ⟨d, hd, surface, tail, htail, hcopy⟩ | ⟨name, hname, hpath, -⟩
    · rcases hcopy with ⟨hpath, -⟩ | ⟨hpath, -⟩
      · rw [hpath, hfile _ (by simp) d hd surface tail htail]
        exact hall d hd
      · rw [hpath, hfile _ (by simp) d hd surface tail htail]
        exact hall d hd
    · rw [hpath]
      exact haggregate name hname

theorem Schema.getLast?_of_mem_directories {schema : Schema} {directory : String}
    (h : directory ∈ schema.directories) : directory.toList.getLast? = some 's' := by
  obtain ⟨entity, -, rfl⟩ := List.mem_map.1 h
  exact Names.getLast?_kebabPlural entity.name

/-- Where all parts of a name but the last are names of places, the directory leads down by names. -/
theorem Schema.isProper_directory {schema : Schema}
    (hnames : ∀ entity ∈ schema.entities, ∀ part ∈ (Path.mk entity.name).parts.dropLast, IsName part)
    {directory : String} (h : directory ∈ schema.directories) : (Path.mk directory).IsProper := by
  obtain ⟨above, last, hparts, hlast⟩ :=
    Path.parts_of_getLast? (Schema.getLast?_of_mem_directories h) (by decide)
  obtain ⟨entity, hentity, rfl⟩ := List.mem_map.1 h
  have habove := Names.isName_of_mem_kebabPlural.2 (hnames entity hentity)
  rw [hparts, List.dropLast_concat] at habove
  rw [Path.IsProper, hparts, List.forall_mem_append, List.forall_mem_singleton]
  exact ⟨habove, isName_of_getLast? hlast (by decide)⟩

theorem Path.IsProper.head?_ne {directory : String} (h : (Path.mk directory).IsProper) :
    directory.toList.head? ≠ some '/' := by
  have habsolute := h.isAbsolute_eq
  rwa [Path.isAbsolute, beq_eq_false_iff_ne] at habsolute

theorem Schema.not_slash_mem_directory {schema : Schema}
    (hnames : ∀ entity ∈ schema.entities, '/' ∉ entity.name.toList) {directory : String}
    (h : directory ∈ schema.directories) : '/' ∉ directory.toList := by
  obtain ⟨entity, hentity, rfl⟩ := List.mem_map.1 h
  rw [Names.mark_mem_kebabPlural (by decide) (by decide)]
  exact hnames entity hentity

/-- A name without a slash is a single part. -/
theorem Schema.isName_of_not_slash {schema : Schema}
    (hnames : ∀ entity ∈ schema.entities, '/' ∉ entity.name.toList) :
    ∀ entity ∈ schema.entities, ∀ part ∈ (Path.mk entity.name).parts.dropLast, IsName part := by
  intro entity hentity part hpart
  rw [Path.parts_of_not_mem (hnames entity hentity)] at hpart
  cases hpart

/-- The parts of the path of a file in a directory that is a single name. -/
theorem Surface.parts_file_of_name {directory : String} {surface : Surface}
    {tail : List String × String} (htail : surface.tail? = some tail)
    (hslash : '/' ∉ directory.toList) :
    (file directory tail).parts = directory :: tail.1 ++ [directory ++ tail.2] := by
  have hparts : (Path.mk directory).parts = [] ++ [directory] := Path.parts_of_not_mem hslash
  rw [parts_file htail hparts]
  rfl

/-- The path of a file leads down by names when all parts of its directory are names; the last one always is. -/
theorem Surface.isProper_file_iff {directory : String} {surface : Surface}
    {tail : List String × String} (htail : surface.tail? = some tail)
    (hlast : directory.toList.getLast? = some 's') :
    (file directory tail).IsProper ↔ ∀ part ∈ (Path.mk directory).parts.dropLast, IsName part := by
  obtain ⟨-, -, hwithin⟩ := tail?_plain surface (mem_all surface) tail htail
  obtain ⟨above, last, hparts, hlast⟩ := Path.parts_of_getLast? hlast (by decide)
  have hname : IsName last := isName_of_getLast? hlast (by decide)
  have hfile : IsName (last ++ tail.2) := isName_of_getLast? (getLast?_ending htail last) (by decide)
  have hbetween : ∀ part ∈ tail.1, IsName part :=
    fun part hpart => isName_of_getLast? (hwithin part hpart).2 (by decide)
  rw [Path.IsProper, parts_file htail hparts, hparts, List.dropLast_concat]
  simp only [List.forall_mem_append, List.forall_mem_singleton]
  tauto

theorem Surface.isProper_file {directory : String} {surface : Surface}
    {tail : List String × String} (htail : surface.tail? = some tail)
    (hslash : '/' ∉ directory.toList) (hlast : directory.toList.getLast? = some 's') :
    (file directory tail).IsProper := by
  rw [isProper_file_iff htail hlast, Path.parts_of_not_mem hslash]
  simp

/-- A file of an entity lies some names below what it is put under, where its directory is a single name. -/
theorem components_join_file (base : Path) {directory : String} {surface : Surface}
    {tail : List String × String} (htail : surface.tail? = some tail)
    (hslash : '/' ∉ directory.toList) (hlast : directory.toList.getLast? = some 's') :
    (base.join (Surface.file directory tail)).components =
      base.components ++ (directory :: tail.1 ++ [directory ++ tail.2]).map Path.Component.name := by
  have hproper := Surface.isProper_file htail hslash hlast
  rw [Path.components_join hproper.isAbsolute_eq (Or.inr hproper.lead_eq), hproper.trail_eq,
    Surface.parts_file_of_name htail hslash]

end EntityForge
