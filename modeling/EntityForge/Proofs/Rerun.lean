import EntityForge.Proofs.Delivery
import EntityForge.Proofs.JoinColumn
import EntityForge.Proofs.Placement
import EntityForge.Proofs.PublishedApi

/-!
What is left of files that are edited by hand when everything is generated again.

With the standard layout all files that are ever replaced lie in another directory than those that are
edited by hand, so no run, whether or not it fails, touches one of these that is there. Main statements:
`path_of_generate`, `Run.changes_on` and `Run.read_on`.
-/

namespace EntityForge

namespace Layout

theorem stem_standard : Layout.standard.resources.stem = ["resources"] ∧
    Layout.standard.reference.stem = ["generated", "resources"] ∧
    Layout.standard.generated.stem = ["generated"] := by decide

theorem isName_generated : IsName "generated" := by
  constructor <;> decide

theorem isName_resources : IsName "resources" := by
  constructor <;> decide

/-- The standard directories are named and stay below the root. -/
theorem isName_of_mem_stem :
    (∀ part ∈ Layout.standard.resources.stem, IsName part) ∧
      (∀ part ∈ Layout.standard.reference.stem, IsName part) ∧
      ∀ part ∈ Layout.standard.generated.stem, IsName part := by
  obtain ⟨hresources, hreference, hgenerated⟩ := stem_standard
  rw [hresources, hreference, hgenerated]
  simp [isName_generated, isName_resources]

end Layout

theorem Aggregate.last_of_mem_names {name : String} (h : name ∈ names) :
    '/' ∉ name.toList ∧ ∃ c, name.toList.getLast? = some c ∧ c ≠ '.' ∧ c ≠ 'p' := by
  have hends : ∀ name ∈ names, '/' ∉ name.toList ∧
      (name.toList.getLast? = some 's' ∨ name.toList.getLast? = some 'n') := by decide
  obtain ⟨hslash, hlast | hlast⟩ := hends name h
  · exact ⟨hslash, 's', hlast, by decide, by decide⟩
  · exact ⟨hslash, 'n', hlast, by decide, by decide⟩

theorem join_of_ending {base path : Path} (hbase : ∀ part ∈ base.stem, IsName part)
    (hpath : path.IsProper) {names : List String} {last : String} {c : Char}
    (hparts : path.parts = names ++ [last]) (hlast : last.toList.getLast? = some c) (hc : c ≠ 'p') :
    (base.join path).IsProper ∧ ¬IsTemporary (base.join path).parts ∧
      (base.join path).parts = base.stem ++ path.parts := by
  have hjoin : (base.join path).parts = base.stem ++ path.parts :=
    Path.parts_join hpath.isAbsolute_eq
  refine ⟨hpath.join hbase, ?_, hjoin⟩
  rw [hjoin, hparts, ← List.append_assoc]
  exact not_isTemporary hlast hc

/-- A file that is generated with the standard layout lies below the root at the place its path says, under a
name that no temporary file has; and one that is to be overwritten lies in a directory of its own. Of
the names of the entities, all parts but the last have to be names of places. -/
theorem path_of_generate_of_parts {schema : Schema} {policy : OwnerPolicy} {artifacts : List Artifact}
    (h : schema.generate policy .standard = .ok artifacts)
    (hnames : ∀ entity ∈ schema.entities, ∀ part ∈ (Path.mk entity.name).parts.dropLast, IsName part)
    {artifact : Artifact} (hmem : artifact ∈ artifacts) :
    artifact.path.IsProper ∧ ¬IsTemporary artifact.path.parts ∧
      ∃ below, artifact.path.parts =
        (match artifact.policy with
        | .skipIfExists => "resources"
        | .overwrite => "generated") :: below := by
  have hplacement := (exists_artifact_iff h).1 ⟨artifact, hmem, rfl, rfl⟩
  obtain ⟨hresources, hreference, hgenerated⟩ := Layout.stem_standard
  obtain ⟨hresourceNames, hreferenceNames, hgeneratedNames⟩ := Layout.isName_of_mem_stem
  rcases mem_placements.1 hplacement with
    ⟨directory, hdirectory, surface, tail, htail, hpath⟩ | ⟨name, hname, hpath, hpolicy⟩
  · have hplural := Schema.getLast?_of_mem_directories hdirectory
    have hproper : (Surface.file directory tail).IsProper := by
      obtain ⟨entity, hentity, rfl⟩ := List.mem_map.1 hdirectory
      rw [Surface.isProper_file_iff htail hplural, Names.isName_of_mem_kebabPlural]
      exact hnames entity hentity
    obtain ⟨above, last, hdirectoryParts, -⟩ := Path.parts_of_getLast? hplural (by decide)
    have hparts := Surface.parts_file htail hdirectoryParts
    rw [← List.append_assoc] at hparts
    have hending := Surface.getLast?_ending htail last
    rcases hpath with ⟨hpath, hpolicy⟩ | ⟨hpath, hpolicy⟩
    · obtain ⟨hjoin, htemporary, hwhole⟩ :=
        join_of_ending hresourceNames hproper hparts hending (by decide)
      rw [hpath, hpolicy]
      exact ⟨hjoin, htemporary, _, by rw [hwhole, hresources]; rfl⟩
    · obtain ⟨hjoin, htemporary, hwhole⟩ :=
        join_of_ending hreferenceNames hproper hparts hending (by decide)
      rw [hpath, hpolicy]
      exact ⟨hjoin, htemporary, _, by rw [hwhole, hreference]; rfl⟩
  · obtain ⟨hslash, c, hlast, hfull, hc⟩ := Aggregate.last_of_mem_names hname
    have hparts : (Path.mk name).parts = [] ++ [name] := Path.parts_of_not_mem hslash
    have hproper : (Path.mk name).IsProper := by
      intro part hpart
      rw [hparts] at hpart
      rw [List.mem_singleton.1 hpart]
      exact isName_of_getLast? hlast hfull
    obtain ⟨hjoin, htemporary, hwhole⟩ := join_of_ending hgeneratedNames hproper hparts hlast hc
    rw [hpath, hpolicy]
    exact ⟨hjoin, htemporary, _, by rw [hwhole, hgenerated]; rfl⟩

/-- So it is where no name holds a slash, since such a name is a single part. -/
theorem path_of_generate {schema : Schema} {policy : OwnerPolicy} {artifacts : List Artifact}
    (h : schema.generate policy .standard = .ok artifacts)
    (hnames : ∀ entity ∈ schema.entities, '/' ∉ entity.name.toList) {artifact : Artifact}
    (hmem : artifact ∈ artifacts) :
    artifact.path.IsProper ∧ ¬IsTemporary artifact.path.parts ∧
      ∃ below, artifact.path.parts =
        (match artifact.policy with
        | .skipIfExists => "resources"
        | .overwrite => "generated") :: below :=
  path_of_generate_of_parts h (Schema.isName_of_not_slash hnames) hmem

/-- A single run: what is generated with the standard layout is delivered, or the delivery is tried out. No
name holds a slash; so much is true of any name made of letters and digits. -/
structure Run where
  schema : Schema
  policy : OwnerPolicy
  artifacts : List Artifact
  generated : schema.generate policy .standard = .ok artifacts
  plain : ∀ entity ∈ schema.entities, '/' ∉ entity.name.toList
  dryRun : Bool

namespace Run

def destination (run : Run) (root : Path) : Destination := ⟨root, run.dryRun⟩

def on (run : Run) (root : Path) (disk : Disk) : DeliveryReport × Disk :=
  ((run.destination root).writeAll run.artifacts).run disk

end Run

/-- The disks that there may be after some runs below a root, with any changes made by hand in between as
long as they leave directories and files below the root and nothing else. -/
inductive Reached (root : Path) : Disk → Prop where
  | start {disk : Disk} (plain : disk.IsPlain root) : Reached root disk
  | run {disk : Disk} (before : Reached root disk) (run : Run) : Reached root (run.on root disk).2
  | edit {disk edited : Disk} (before : Reached root disk) (plain : edited.IsPlain root) :
    Reached root edited

namespace Run

open Destination

variable {root : Path} {disk : Disk}

theorem changes_on (run : Run) (hplain : disk.IsPlain root) :
    Disk.Changes (Fresh (disk.site root) run.artifacts) (Touched (disk.site root) run.artifacts)
      disk (run.on root disk).2 := by
  have hpaths : ∀ artifact ∈ run.artifacts, artifact.path.IsProper := fun a hmem =>
    (path_of_generate run.generated run.plain hmem).1
  have hroot : disk.IsPlain (run.destination root).root := hplain
  have h := changes_writeAll hroot hpaths
  unfold on
  exact h

theorem isPlain_of_reached (h : Reached root disk) : disk.IsPlain root := by
  induction h with
  | start plain => exact plain
  | run _ run ih => exact ih.later (run.changes_on ih)
  | edit _ plain _ => exact plain

theorem on_dryRun (run : Run) (root : Path) (disk : Disk) (h : run.dryRun = true) :
    (run.on root disk).2 = disk := by
  have hdry : (run.destination root).dryRun = true := h
  unfold on writeAll
  rw [writeEach_dryRun hdry]

/-- What a run puts in the place of other files is what it made last for that place. -/
theorem read_on (run : Run) (hplain : disk.IsPlain root) (hreal : run.dryRun = false)
    (hdone : (run.on root disk).1.failure? = none) {artifact : Artifact}
    (hmem : artifact ∈ run.artifacts) (hpolicy : artifact.policy = .overwrite) :
    ∃ last, Artifact.find? run.artifacts.reverse artifact.path = some last ∧
      (run.on root disk).2.read (root.join artifact.path) = .ok last.contents := by
  have hpaths {a : Artifact} (ha : a ∈ run.artifacts) := path_of_generate run.generated run.plain ha
  obtain ⟨last, hfound⟩ : ∃ last, Artifact.find? run.artifacts.reverse artifact.path = some last := by
    rw [← Option.isSome_iff_exists, Artifact.find?, List.find?_isSome]
    exact ⟨artifact, List.mem_reverse.2 hmem, by simp [Path.isSame]⟩
  obtain ⟨hreversed, hsame⟩ := mem_of_find? hfound
  have hlast : last ∈ run.artifacts := List.mem_reverse.1 hreversed
  have hparts : last.path.parts = artifact.path.parts :=
    ((hpaths hlast).1.isSame_iff (hpaths hmem).1).1 hsame
  have hoverwrite : last.policy = .overwrite := by
    obtain ⟨-, -, below, hbelow⟩ := hpaths hmem
    obtain ⟨-, -, other, hother⟩ := hpaths hlast
    rw [hparts, hbelow, hpolicy] at hother
    cases hlastPolicy : last.policy with
    | overwrite => rfl
    | skipIfExists => simp [hlastPolicy] at hother
  obtain ⟨before, after, horder, hafter⟩ := order_of_last hfound hoverwrite
  have hmember {a : Artifact} (ha : a ∈ before ++ last :: after) : a ∈ run.artifacts := by
    rw [← horder] at ha
    exact mem_order.1 ha
  refine ⟨last, hfound, ?_⟩
  have hroot : disk.IsPlain (run.destination root).root := hplain
  unfold on writeAll at hdone ⊢
  rw [horder] at hdone ⊢
  have hread := read_of_writeEach hroot (fun a ha => ⟨(hpaths (hmember ha)).1,
    (hpaths (hmember ha)).2.1⟩) hoverwrite ?_ hreal hdone
  · rw [← Path.eq_of_parts hparts]
    exact hread
  · intro a ha _ hsame
    have hmem' : a ∈ run.artifacts := hmember (by simp [ha])
    have hdifferent := hafter a ha
    rw [← Bool.not_eq_true, (hpaths hmem').1.isSame_iff (hpaths hmem).1] at hdifferent
    exact hdifferent (hsame.trans hparts)

end Run

/-- A run, whether or not it fails, keeps every file that is there in the directory of files edited by hand,
temporary files aside. If it does not fail, every path that it overwrites holds what it made last for
it; or it is only tried out, and changes nothing. -/
theorem edited_kept_and_generated_current {root : Path} {disk : Disk} (h : Reached root disk)
    (run : Run) :
    (∀ below contents, ¬IsTemporary below →
      disk.tree.get? (disk.site root ++ "resources" :: below) = some (.file contents) →
      (run.on root disk).2.tree.get? (disk.site root ++ "resources" :: below) =
        some (.file contents)) ∧
    (run.dryRun = false → (run.on root disk).1.failure? = none →
      ∀ artifact ∈ run.artifacts, artifact.policy = .overwrite →
        ∃ last, Artifact.find? run.artifacts.reverse artifact.path = some last ∧
          (run.on root disk).2.read (root.join artifact.path) = .ok last.contents) ∧
    (run.dryRun = true → (run.on root disk).2 = disk) := by
  have hplain := Run.isPlain_of_reached h
  refine ⟨fun below contents htemporary hfile => ?_, fun hreal hdone artifact hmem hpolicy =>
    run.read_on hplain hreal hdone hmem hpolicy, run.on_dryRun root disk⟩
  refine (run.changes_on hplain).kept ?_ hfile
  rintro (hstaged | ⟨artifact, hmem, hpolicy, hplace⟩)
  · have hresources : ¬IsTemporary ("resources" :: below) := by
      cases below with
      | nil =>
        have hlast : "resources".toList.getLast? = some 's' := by decide
        rw [← List.nil_append ["resources"]]
        exact not_isTemporary hlast (by decide)
      | cons part rest =>
        exact fun h => htemporary ((isTemporary_append ["resources"] (List.cons_ne_nil _ _)).1 h)
    exact hresources ((isTemporary_append _ (List.cons_ne_nil _ _)).1 hstaged)
  · obtain ⟨-, -, other, hother⟩ := path_of_generate run.generated run.plain hmem
    rw [hother, hpolicy] at hplace
    simpa using List.append_cancel_left hplace

/-- A service that has been edited by hand. -/
def editedService : Disk where
  tree := ⟨[
    (["out"], .directory),
    (["out", "resources"], .directory),
    (["out", "resources", "persons"], .directory),
    (["out", "resources", "persons", "persons.service.ts"], .file "// edited by hand")]⟩
  here := []

theorem edited_kept_for_people :
    ∃ run : Run, run.schema = people ∧ run.dryRun = false ∧
      (run.on ⟨"out"⟩ editedService).2.tree.get?
          ["out", "resources", "persons", "persons.service.ts"] =
        some (.file "// edited by hand") := by
  obtain ⟨artifacts, hgenerate⟩ := Schema.generate_of_resolve people_resolve .standard .standard
  have hnames : ∀ entity ∈ people.entities, '/' ∉ entity.name.toList := by decide
  let run : Run := ⟨people, .standard, artifacts, hgenerate, hnames, false⟩
  have hplain : editedService.IsPlain ⟨"out"⟩ := Disk.isPlain_of_entries (by decide) _
  have hsite : editedService.site ⟨"out"⟩ = ["out"] := by decide
  have hlast : "persons.service.ts".toList.getLast? = some 's' := by decide
  have htemporary : ¬IsTemporary (["persons"] ++ ["persons.service.ts"]) :=
    not_isTemporary hlast (by decide)
  obtain ⟨hkept, -⟩ := edited_kept_and_generated_current (.start hplain) run
  rw [hsite] at hkept
  exact ⟨run, rfl, rfl, hkept _ _ htemporary (by decide)⟩

end EntityForge
