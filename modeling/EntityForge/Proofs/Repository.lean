import EntityForge.Proofs.Collision
import EntityForge.Proofs.Rules
import Mathlib.Data.List.Duplicate

/-!
What tells the files of two entities apart that share a directory.

Entities may be named so that their files have the same paths; but a repository tells the name of its entity,
and no two entities have one name. So where a directory is shared there is a path whose first file holds
something else than its last one. Main statements: `name_of_repository` and `exists_first_last_of_shared`.
-/

namespace EntityForge

open Artifact

/-- Of two repositories each is as long as its names make it. -/
theorem length_repository (subject other : Subject) :
    (Surface.repository.text subject).length + (6 * other.entity.name.length +
        3 * other.names.token.length + 2 * other.names.plural.length) =
      (Surface.repository.text other).length + (6 * subject.entity.name.length +
        3 * subject.names.token.length + 2 * subject.names.plural.length) := by
  have hmodel (subject : Subject) : subject.names.model = subject.entity.name := rfl
  simp [Surface.text, Resource.repository, TypeScript.Script.text, TypeScript.spaced,
    TypeScript.Import.text, TypeScript.Item.text, TypeScript.Declaration.text, TypeScript.constant,
    TypeScript.blankLine, TypeScript.Keyword.text, String.join, toString, hmodel]
  omega

/-- The first thing that a repository says of its own is the name of its entity. -/
theorem prefix_of_repository {subject other : Subject}
    (h : Surface.repository.text subject = Surface.repository.text other) :
    subject.entity.name.toList <+: other.entity.name.toList ∨
      other.entity.name.toList <+: subject.entity.name.toList := by
  have hchars := congrArg String.toList h
  simp only [Surface.text, Resource.repository, TypeScript.Script.text, TypeScript.Import.text,
    String.join, List.map_cons, List.map_nil, List.foldl_cons, List.foldl_nil, String.toList_append,
    List.append_assoc, List.append_cancel_left_eq, toString, String.intercalate_singleton] at hchars
  exact List.prefix_or_prefix_of_prefix ⟨_, rfl⟩ ⟨_, hchars.symm⟩

/-- The text of a repository tells the name of its entity. A name that begins with another one would make all
that follows longer, up to a letter in each plural. -/
theorem name_of_repository {subject other : Subject}
    (h : Surface.repository.text subject = Surface.repository.text other) :
    subject.entity.name = other.entity.name := by
  have hlength := length_repository subject other
  rw [h, Nat.add_left_cancel_iff] at hlength
  have hsame {s t : Subject} (hbegins : s.entity.name.toList <+: t.entity.name.toList)
      (hlength : 6 * t.entity.name.length + 3 * t.names.token.length + 2 * t.names.plural.length =
        6 * s.entity.name.length + 3 * s.names.token.length + 2 * s.names.plural.length) :
      s.entity.name = t.entity.name := by
    have hname := hbegins.length_le
    have htoken : s.names.token.length ≤ t.names.token.length := by
      have hsnake := Identifier.length_screamingSnake_le hbegins
      simp only [Subject.names, Names.ofModel, String.length_append]
      omega
    obtain ⟨-, hupper⟩ := Identifier.length_plural s.entity.name
    obtain ⟨hlower, -⟩ := Identifier.length_plural t.entity.name
    have hsplural : s.names.plural.length ≤ s.entity.name.length + 2 := hupper
    have htplural : t.entity.name.length + 1 ≤ t.names.plural.length := hlower
    rw [String.length_toList, String.length_toList] at hname
    rw [← String.toList_inj]
    apply hbegins.eq_of_length
    rw [String.length_toList, String.length_toList]
    omega
  rcases prefix_of_repository h with hbegins | hbegins
  · exact hsame hbegins hlength
  · exact (hsame hbegins hlength.symm).symm

/-- Values of which two have one image: the first and the last one with that image. -/
theorem exists_first_last_of_not_nodup {α β : Type} {f : α → β} {values : List α}
    (h : ¬(values.map f).Nodup) : ∃ before first between last after,
      values = before ++ first :: between ++ last :: after ∧ f first = f last ∧
        (∀ earlier ∈ before, f earlier ≠ f first) ∧ ∀ later ∈ after, f later ≠ f first := by
  obtain ⟨image, htwice⟩ := List.exists_duplicate_iff_not_nodup.2 h
  obtain ⟨pair, hpair, hmap⟩ := List.sublist_map_iff.1 (List.duplicate_iff_sublist.1 htwice)
  obtain ⟨one, rest, rfl, hone, hrest⟩ := List.map_eq_cons_iff.1 hmap.symm
  obtain ⟨other, nothing, rfl, hother, -⟩ := List.map_eq_cons_iff.1 hrest
  obtain ⟨left, right, rfl, hleft, hright⟩ := List.cons_sublist_iff.1 hpair
  obtain ⟨before, first, more, rfl, hbefore, hfirst⟩ :=
    exists_first (p := fun value => f value ≠ image) hleft (not_not_intro hone)
  obtain ⟨less, last, after, rfl, hlast, hafter⟩ :=
    exists_last (p := fun value => f value = image) (hright.subset (List.mem_cons_self)) hother
  obtain rfl := not_not.1 hfirst
  exact ⟨before, first, more ++ less, last, after, by simp, hlast.symm, hbefore, hafter⟩

/-- Where no two values have one image, a value shares its image with none that stands before or after it. -/
theorem ne_of_nodup_map {α β : Type} {f : α → β} {before after : List α} {one : α}
    (h : ((before ++ one :: after).map f).Nodup) : ∀ other ∈ before ++ after, f other ≠ f one := by
  rw [List.map_append, List.map_cons, List.nodup_middle, List.nodup_cons, ← List.map_append] at h
  intro other hother hsame
  apply h.1
  rw [← hsame]
  exact List.mem_map_of_mem hother

section Scaffold

variable (layout : Layout) (subject : Subject)

/-- The file of an entity that is told from those of all other entities by what it holds. -/
def Artifact.repository : Artifact :=
  ⟨layout.resources.join (Surface.file subject.names.kebabPlural ([], ".repository.ts")),
    Surface.repository.text subject, .skipIfExists⟩

theorem path_repository : (repository layout subject).path =
    layout.resources.join (Surface.file subject.names.kebabPlural ([], ".repository.ts")) := by
  simp only [repository]

theorem mem_scaffold_repository : repository layout subject ∈ scaffold layout subject := by
  refine List.mem_flatMap.2 ⟨.repository, Surface.mem_all _, ?_⟩
  rw [Surface.file?_eq]
  exact List.mem_cons_self

theorem components_scaffold : (scaffold layout subject).map (fun a => a.path.components) =
    layout.copies subject.names.kebabPlural := by
  have hmap : (scaffold layout subject).map (fun a => a.path.components) =
      ((scaffold layout subject).map Artifact.placement).map fun placement => placement.1.components := by
    rw [List.map_map]
    rfl
  rw [hmap, placements_scaffold, List.map_flatMap]
  rfl

variable {subject} {other : Subject} {b : Artifact}

theorem path_repository_congr (h : other.names.kebabPlural = subject.names.kebabPlural) :
    (repository layout other).path = (repository layout subject).path := by
  rw [path_repository, path_repository, h]

/-- A file of an entity with another directory has not the path of a repository. -/
theorem ne_repository_of_disjoint
    (h : (layout.copies other.names.kebabPlural).Disjoint (layout.copies subject.names.kebabPlural))
    (hb : b ∈ scaffold layout other) : b.path.components ≠ (repository layout subject).path.components := by
  intro hcomponents
  refine h (?_ : b.path.components ∈ _) ?_
  · rw [← components_scaffold]
    exact List.mem_map_of_mem hb
  · rw [hcomponents, ← components_scaffold]
    exact List.mem_map_of_mem (mem_scaffold_repository layout subject)

section Standard

variable (hplural : subject.names.kebabPlural.toList.getLast? = some 's')

include hplural

/-- Of the files of its own entity it is the only one with its path. -/
theorem repository_alone (hrelative : subject.names.kebabPlural.toList.head? ≠ some '/') :
    ∃ before after, scaffold .standard subject = before ++ repository .standard subject :: after ∧
      ∀ b ∈ before ++ after, b.path.components ≠ (repository .standard subject).path.components := by
  obtain ⟨before, after, hsplit⟩ := List.append_of_mem (mem_scaffold_repository .standard subject)
  refine ⟨before, after, hsplit, ne_of_nodup_map ?_⟩
  rw [← hsplit, components_scaffold, nodup_copies_iff hplural]
  exact hrelative

theorem ne_repository_of_aggregate {subjects : List Subject} {api : Json}
    (hb : b ∈ Aggregate.artifacts .standard subjects api) :
    b.path.components ≠ (repository .standard subject).path.components := by
  have hplacement : b.placement ∈ (Aggregate.artifacts .standard subjects api).map Artifact.placement :=
    List.mem_map_of_mem hb
  rw [placements_aggregate] at hplacement
  obtain ⟨name, hname, hplace⟩ := List.mem_map.1 hplacement
  have hpath : Layout.standard.generated.join ⟨name⟩ = b.path := congrArg Prod.fst hplace
  have htail : Surface.tail? .repository = some ([], ".repository.ts") := rfl
  rw [← hpath, path_repository]
  exact (Surface.components_ne_aggregate htail hplural hname).symm

end Standard

end Scaffold

section Shared

variable {schema : Schema} {policy : OwnerPolicy} {artifacts : List Artifact}
  (h : schema.generate policy .standard = .ok artifacts)
  (hnames : ∀ entity ∈ schema.entities, ∀ part ∈ (Path.mk entity.name).parts.dropLast, IsName part)

include hnames in
theorem trail_inj {directory other : String} (hdirectory : directory ∈ schema.directories)
    (hother : other ∈ schema.directories) (h : (Path.mk directory).trail = (Path.mk other).trail) :
    directory = other := by
  have hinjective : Function.Injective (List.map Path.Component.name) :=
    List.map_injective_iff.2 fun _ _ => Path.Component.name.inj
  rw [(Schema.isProper_directory hnames hdirectory).trail_eq,
    (Schema.isProper_directory hnames hother).trail_eq, hinjective.eq_iff] at h
  exact congrArg Path.text (Path.eq_of_parts h)

include hnames in
theorem disjoint_copies {directory other : String} (hdirectory : directory ∈ schema.directories)
    (hother : other ∈ schema.directories) (hne : directory ≠ other) :
    (Layout.standard.copies directory).Disjoint (Layout.standard.copies other) := by
  rw [disjoint_copies_iff (Schema.getLast?_of_mem_directories hdirectory)
    (Schema.getLast?_of_mem_directories hother) (Schema.isProper_directory hnames hdirectory).head?_ne
    (Schema.isProper_directory hnames hother).head?_ne]
  exact fun htrail => hne (trail_inj hnames hdirectory hother htrail)

/-- Around the repository of an entity stand the files of the entities before and after it. None of those has its
path, unless it is of an entity with its directory. -/
theorem exists_around_repository {subjects before after : List Subject} {subject : Subject} (api : Json)
    (hdirectories : ∀ subject ∈ subjects, subject.names.kebabPlural ∈ schema.directories)
    (hnames : ∀ entity ∈ schema.entities, ∀ part ∈ (Path.mk entity.name).parts.dropLast, IsName part)
    (hsplit : subjects = before ++ subject :: after) :
    ∃ front back, subjects.flatMap (scaffold .standard) ++ Aggregate.artifacts .standard subjects api =
        front ++ repository .standard subject :: back ∧
      ((∀ other ∈ before, other.names.kebabPlural ≠ subject.names.kebabPlural) →
        ∀ b ∈ front, b.path.components ≠ (repository .standard subject).path.components) ∧
      ((∀ other ∈ after, other.names.kebabPlural ≠ subject.names.kebabPlural) →
        ∀ b ∈ back, b.path.components ≠ (repository .standard subject).path.components) := by
  have hself := hdirectories subject (by simp [hsplit])
  have hplural := Schema.getLast?_of_mem_directories hself
  have hother {others : List Subject} (hothers : ∀ other ∈ others, other ∈ subjects)
      (hne : ∀ other ∈ others, other.names.kebabPlural ≠ subject.names.kebabPlural) :
      ∀ b ∈ others.flatMap (scaffold .standard),
        b.path.components ≠ (repository .standard subject).path.components := by
    intro b hb
    obtain ⟨other, hmem, hb⟩ := List.mem_flatMap.1 hb
    have hdisjoint := disjoint_copies hnames (hdirectories other (hothers other hmem)) hself (hne other hmem)
    exact ne_repository_of_disjoint .standard hdisjoint hb
  obtain ⟨x, y, hxy, halone⟩ := repository_alone hplural (Schema.isProper_directory hnames hself).head?_ne
  obtain ⟨hx, hy⟩ := List.forall_mem_append.1 halone
  refine ⟨before.flatMap (scaffold .standard) ++ x,
    y ++ after.flatMap (scaffold .standard) ++ Aggregate.artifacts .standard subjects api, ?_, ?_, ?_⟩
  · nth_rewrite 1 [hsplit]
    simp [hxy]
  · intro hbefore
    exact List.forall_mem_append.2 ⟨hother (fun _ hmem => by simp [hsplit, hmem]) hbefore, hx⟩
  · intro hafter
    refine List.forall_mem_append.2 ⟨List.forall_mem_append.2 ⟨hy, ?_⟩, ?_⟩
    · exact hother (fun _ hmem => by simp [hsplit, hmem]) hafter
    · exact fun b => ne_repository_of_aggregate hplural

include h hnames in
/-- Where two entities share a directory, the first and the last one of them have a file with one path that
holds different contents. -/
theorem exists_first_last_of_shared (hshared : ¬schema.directories.Nodup)
    (hdistinct : (schema.entities.map Entity.name).Nodup) :
    ∃ before first after before' last after', artifacts = before ++ first :: after ∧
      artifacts = before' ++ last :: after' ∧ first.path = last.path ∧ first.policy = .skipIfExists ∧
      first.contents ≠ last.contents ∧ (∀ b ∈ before, b.path.components ≠ first.path.components) ∧
      ∀ b ∈ after', b.path.components ≠ last.path.components := by
  obtain ⟨subjects, api, -, hentities, rfl⟩ := artifacts_of_generate h
  have hdirectories : schema.directories = subjects.map fun subject => subject.names.kebabPlural := by
    rw [Schema.directories, ← hentities, List.map_map]
    rfl
  have hmem : ∀ subject ∈ subjects, subject.names.kebabPlural ∈ schema.directories := by
    intro subject hsubject
    rw [hdirectories]
    exact List.mem_map_of_mem hsubject
  rw [hdirectories] at hshared
  obtain ⟨earlier, first, between, last, later, hsplit, hsame, hearlier, hlater⟩ :=
    exists_first_last_of_not_nodup hshared
  obtain ⟨before, after, hfirstSplit, hbefore, -⟩ :=
    exists_around_repository api hmem hnames (by simpa using hsplit)
  obtain ⟨before', after', hlastSplit, -, hafter⟩ := exists_around_repository api hmem hnames hsplit
  rw [hsame] at hlater
  refine ⟨before, repository .standard first, after, before', repository .standard last, after', hfirstSplit,
    hlastSplit, path_repository_congr .standard hsame, rfl, ?_, hbefore hearlier, hafter hlater⟩
  intro hcontents
  have hentityNames : (subjects.map fun subject => subject.entity.name).Nodup := by
    rw [← hentities, List.map_map] at hdistinct
    exact hdistinct
  rw [hsplit, List.append_assoc, List.cons_append] at hentityNames
  exact ne_of_nodup_map hentityNames last (by simp) (name_of_repository hcontents).symm

end Shared

end EntityForge
