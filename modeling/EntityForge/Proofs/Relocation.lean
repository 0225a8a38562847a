import EntityForge.Proofs.Delivery
import EntityForge.Proofs.Placement

/-!
Output directories that are put under another directory.

What is generated stays the same, and each file goes under that directory too. So a delivery does what it would
do with the old directories and a root that is put under the old one: that the output directories step up is no
different from an output root that does. Main statements: `generate_under` and `writeAll_under`.
-/

namespace EntityForge

def Layout.under (layout : Layout) (base : Path) : Layout :=
  ⟨base.join layout.resources, base.join layout.reference, base.join layout.generated⟩

def Artifact.under (artifact : Artifact) (base : Path) : Artifact :=
  { artifact with path := base.join artifact.path }

section Generation

variable {layout : Layout} {base : Path} {subject : Subject} {subjects : List Subject} {api : Json}

theorem scaffold_under (h : ∀ a ∈ Artifact.scaffold layout subject, a.path.isAbsolute = false) :
    Artifact.scaffold (layout.under base) subject = (Artifact.scaffold layout subject).map (·.under base) := by
  unfold Artifact.scaffold at h ⊢
  rw [List.map_flatMap]
  refine List.flatMap_congr fun surface hsurface => ?_
  have hcopies := fun a ha => h a (List.mem_flatMap.2 ⟨surface, hsurface, ha⟩)
  cases hfile : surface.file? subject.names.kebabPlural with
  | none => rfl
  | some file =>
    simp only [hfile, Artifact.copies, List.forall_mem_cons] at hcopies
    obtain ⟨hresources, hreference, -⟩ := hcopies
    simp only [Artifact.copies, Layout.under, List.map_cons, List.map_nil, Artifact.under]
    rw [← Path.join_join base hresources, ← Path.join_join base hreference]

theorem aggregates_under (h : ∀ a ∈ Aggregate.artifacts layout subjects api, a.path.isAbsolute = false) :
    Aggregate.artifacts (layout.under base) subjects api =
      (Aggregate.artifacts layout subjects api).map (·.under base) := by
  unfold Aggregate.artifacts at h ⊢
  rw [List.forall_mem_map] at h
  rw [List.map_map]
  refine List.map_congr_left fun file hfile => ?_
  exact congrArg (Artifact.mk · file.2 .overwrite) (Path.join_join base (h file hfile)).symm

/-- Where the output directories are put under another one, so is every file, and nothing else changes. -/
theorem generate_under {schema : Schema} {policy : OwnerPolicy} {artifacts : List Artifact}
    (h : schema.generate policy layout = .ok artifacts) (hrelative : ∀ a ∈ artifacts, a.path.isAbsolute = false) :
    schema.generate policy (layout.under base) = .ok (artifacts.map (·.under base)) := by
  obtain ⟨subjects, hsubjects, hapi⟩ := bind_eq_ok.1 h
  obtain ⟨api, hofSubjects, hartifacts⟩ := bind_eq_ok.1 hapi
  rw [← pure_eq_ok.1 hartifacts, List.forall_mem_append] at hrelative
  obtain ⟨hscaffolds, haggregates⟩ := hrelative
  have hflat : subjects.flatMap (Artifact.scaffold (layout.under base)) =
      subjects.flatMap fun subject => (Artifact.scaffold layout subject).map (·.under base) :=
    List.flatMap_congr fun subject hsubject =>
      scaffold_under fun a ha => hscaffolds a (List.mem_flatMap.2 ⟨subject, hsubject, ha⟩)
  refine bind_eq_ok.2 ⟨subjects, hsubjects, bind_eq_ok.2 ⟨api, hofSubjects, pure_eq_ok.2 ?_⟩⟩
  rw [← pure_eq_ok.1 hartifacts, hflat, aggregates_under haggregates, List.map_append, List.map_flatMap]

end Generation

namespace Destination

open Delivery

variable (destination : Destination) {base : Path} {artifact : Artifact} {artifacts : List Artifact}

def under (destination : Destination) (base : Path) : Destination :=
  { destination with root := destination.root.join base }

theorem order_under (artifacts : List Artifact) (base : Path) :
    order (artifacts.map (·.under base)) = (order artifacts).map (·.under base) := by
  simp only [order, List.filter_map, List.map_append]
  rfl

section Relative

variable (hbase : base.isAbsolute = false)

include hbase

theorem write_under (h : artifact.path.isAbsolute = false) :
    destination.write (artifact.under base) = (destination.under base).write artifact := by
  have hrelative : (base.join artifact.path).isAbsolute = false := (Path.isAbsolute_join h).trans hbase
  have htarget : destination.root.join (artifact.under base).path = (destination.under base).root.join artifact.path :=
    Path.join_join destination.root hrelative
  unfold Destination.write
  rw [htarget]
  rfl

theorem writeEach_under (h : ∀ a ∈ artifacts, a.path.isAbsolute = false) (disk : Disk) :
    let report := (destination.writeEach (artifacts.map (·.under base))).run disk
    let other := ((destination.under base).writeEach artifacts).run disk
    report.1.failure? = other.1.failure? ∧ report.2 = other.2 := by
  induction artifacts generalizing disk with
  | nil => exact ⟨rfl, rfl⟩
  | cons artifact artifacts ih =>
    obtain ⟨hartifact, hartifacts⟩ := List.forall_mem_cons.1 h
    rw [List.map_cons, run_writeEach, run_writeEach, write_under destination hbase hartifact]
    rcases played ((destination.under base).write artifact) disk with ⟨failure | outcome, later⟩
    · exact ⟨rfl, rfl⟩
    · exact ih hartifacts later

/-- Files that are put under a directory fail or not as they do when the root is put under it, and leave the same
disk. -/
theorem writeAll_under (h : ∀ a ∈ artifacts, a.path.isAbsolute = false) (disk : Disk) :
    let report := (destination.writeAll (artifacts.map (·.under base))).run disk
    let other := ((destination.under base).writeAll artifacts).run disk
    report.1.failure? = other.1.failure? ∧ report.2 = other.2 := by
  unfold Destination.writeAll
  rw [order_under]
  exact writeEach_under destination hbase (fun a ha => h a (mem_order.1 ha)) disk

end Relative

end Destination

end EntityForge
