import EntityForge.Proofs.Collision
import EntityForge.Proofs.WellFormed

/-!
Which generated files lie under the root.

A path that is put under another stays there unless it is absolute or steps up. What a file's path does is
what the name of its entity does, and a name may be any text: a slash at its start makes the path absolute,
and a part `..` in front of another part steps up. Main statements: `contained_join`, `contained_file` and
`contained_iff`.
-/

namespace EntityForge

namespace Path

/-- A path that leads nowhere but to places under the one it is put under. -/
def Contained (path : Path) : Prop :=
  path.isAbsolute = false ∧ Component.up ∉ path.components

instance (path : Path) : Decidable path.Contained := inferInstanceAs (Decidable (_ ∧ _))

variable {path base : Path}

theorem componentOf?_eq_up {part : String} : componentOf? part = some .up ↔ part = ".." := by
  constructor
  · intro h
    unfold componentOf? at h
    split at h
    · cases h
    · split at h
      · next hup => exact beq_iff_eq.1 hup
      · cases h
  · rintro rfl
    rfl

theorem up_mem_trail : Component.up ∈ path.trail ↔ ".." ∈ path.parts := by
  rw [trail, List.mem_filterMap]
  simp only [componentOf?_eq_up, exists_eq_right]

theorem up_mem_components : Component.up ∈ path.components ↔ Component.up ∈ path.trail := by
  have hlead : Component.up ∉ path.lead := by
    unfold lead
    split
    · decide
    · split <;> decide
  rw [components_eq, List.mem_append, or_iff_right hlead]

/-- Whether a path stays under another one is up to that path. -/
theorem contained_join (hbase : base.Contained) (hne : base.text ≠ "") :
    (base.join path).Contained ↔ path.Contained := by
  by_cases habsolute : path.isAbsolute = true
  · have hjoin : base.join path = path := by
      unfold join
      rw [if_pos habsolute]
    rw [hjoin]
  · have hrelative : path.isAbsolute = false := by simpa using habsolute
    unfold Contained
    rw [isAbsolute_join hrelative, components_join hrelative (Or.inl hne), List.mem_append,
      or_iff_right hbase.2, up_mem_components, hrelative]
    simp only [hbase.1, true_and]

end Path

/-- The files in a directory stay under the root when the directory does; what its last part is does not
matter, since a plural is no step. -/
theorem Surface.contained_file {directory : String} {surface : Surface} {tail : List String × String}
    (htail : surface.tail? = some tail) (hdirectory : directory.toList.getLast? = some 's') :
    (file directory tail).Contained ↔
      directory.toList.head? ≠ some '/' ∧ ".." ∉ (Path.mk directory).parts.dropLast := by
  obtain ⟨-, -, hwithin⟩ := tail?_plain surface surface.mem_all tail htail
  obtain ⟨above, last, hparts, hlast⟩ := Path.parts_of_getLast? hdirectory (by decide)
  have hdirectoryName : IsName last := isName_of_getLast? hlast (by decide)
  have hfileName : IsName (last ++ tail.2) :=
    isName_of_getLast? (getLast?_ending htail last) (by decide)
  have hbetween : ".." ∉ tail.1 := by
    intro hup
    exact (isName_of_getLast? (hwithin ".." hup).2 (by decide)).ne_up rfl
  have hup : ".." ∈ (file directory tail).parts ↔ ".." ∈ above := by
    rw [parts_file htail hparts]
    simp only [List.mem_append, List.mem_singleton, hdirectoryName.ne_up.symm, hfileName.ne_up.symm,
      hbetween, or_false, or_self]
  have habsolute : (file directory tail).isAbsolute = false ↔ directory.toList.head? ≠ some '/' := by
    rw [← Bool.not_eq_true, isAbsolute_file hdirectory]
  rw [Path.Contained, habsolute, Path.up_mem_components, Path.up_mem_trail, hup, hparts,
    List.dropLast_concat]

theorem contained_aggregate :
    ∀ name ∈ Aggregate.names, (Layout.standard.generated.join ⟨name⟩).Contained := by
  decide

/-- Every schema that resolves is generated from. With the standard layout no path is absolute and none
steps up exactly when no name starts with a slash and none has a part `..` in front of another part. -/
theorem contained_iff {schema : Schema} {resolved : List ResolvedEntity}
    (h : schema.resolve = .ok resolved) (policy : OwnerPolicy) :
    ∃ artifacts, schema.generate policy .standard = .ok artifacts ∧
      ((∀ a ∈ artifacts, a.path.Contained) ↔
        ∀ entity ∈ schema.entities, entity.name.toList.head? ≠ some '/' ∧
          ".." ∉ (Path.mk entity.name).parts.dropLast) := by
  obtain ⟨artifacts, hgenerate⟩ := Schema.generate_of_resolve h policy .standard
  refine ⟨artifacts, hgenerate, ?_⟩
  have hbases : ∀ base ∈ [Layout.standard.resources, Layout.standard.reference],
      base.Contained ∧ base.text ≠ "" := by decide
  rw [forall_path_iff hgenerate
    (Q := fun d => d.toList.head? ≠ some '/' ∧ ".." ∉ (Path.mk d).parts.dropLast) ?_ contained_aggregate]
  · simp only [Schema.directories, List.forall_mem_map, ne_eq, Names.head?_kebabPlural,
      Names.up_mem_kebabPlural]
  · intro base hbase d hd surface tail htail
    obtain ⟨hcontained, hne⟩ := hbases base hbase
    rw [Path.contained_join hcontained hne,
      Surface.contained_file htail (Schema.getLast?_of_mem_directories hd)]

theorem contained_for_people :
    people.resolve = .ok people.resolved ∧
      ∃ artifacts, people.generate .standard .standard = .ok artifacts ∧
        ∀ a ∈ artifacts, a.path.Contained := by
  obtain ⟨artifacts, hgenerate, hiff⟩ := contained_iff people_resolve .standard
  have hnames : ∀ entity ∈ people.entities, entity.name.toList.head? ≠ some '/' ∧
      ".." ∉ (Path.mk entity.name).parts.dropLast := by decide
  exact ⟨people_resolve, artifacts, hgenerate, hiff.2 hnames⟩

/-- Models that a document may have, one named by an absolute path and one that steps up. -/
def outsiders.document : Document where
  models := some [
    ("/Person", ⟨"people", [("id", ⟨"integer", true, true, false, none, none, none, none⟩)], []⟩),
    ("../../Place", ⟨"places", [("id", ⟨"integer", true, true, false, none, none, none, none⟩)], []⟩)]
  relationships := []
  api := .standard

def outsiders : Schema where
  entities := [
    { name := "/Person"
      tableName := "people"
      fields := [⟨"id", .integer, true, true, false, none, none, none, none⟩]
      indexes := []
      relations := [] },
    { name := "../../Place"
      tableName := "places"
      fields := [⟨"id", .integer, true, true, false, none, none, none, none⟩]
      indexes := []
      relations := [] }]
  api := .standard

/-- The document is accepted. Files of the first model go to the root of the disk, and those of the second
above the root of all files. -/
theorem not_contained_for_outsiders :
    outsiders.document.Keyed ∧ Schema.load outsiders.document = .ok outsiders ∧
      ∃ artifacts, outsiders.generate .standard .standard = .ok artifacts ∧
        (∃ a ∈ artifacts, a.path = ⟨"/persons//persons.controller.ts"⟩ ∧ a.path.isAbsolute = true) ∧
        ∃ a ∈ artifacts, a.path = ⟨"resources/../../places/../../places.controller.ts"⟩ ∧
          Path.Component.up ∈ a.path.components := by
  have hresolve : outsiders.resolve = .ok (outsiders.entities.map (⟨·, []⟩)) := by decide
  obtain ⟨artifacts, hgenerate⟩ := Schema.generate_of_resolve hresolve .standard .standard
  refine ⟨⟨by decide, by decide⟩, by decide, artifacts, hgenerate, ?_, ?_⟩
  · obtain ⟨a, ha, hpath, -⟩ := (exists_artifact_iff hgenerate).2 (mem_placements.2 (Or.inl
      ⟨"/persons", by decide, .controller, _, rfl, Or.inl ⟨rfl, rfl⟩⟩))
    exact ⟨a, ha, hpath.trans (by decide), by rw [hpath]; decide⟩
  · obtain ⟨a, ha, hpath, -⟩ := (exists_artifact_iff hgenerate).2 (mem_placements.2 (Or.inl
      ⟨"../../places", by decide, .controller, _, rfl, Or.inl ⟨rfl, rfl⟩⟩))
    exact ⟨a, ha, hpath.trans (by decide), by rw [hpath]; decide⟩

end EntityForge
