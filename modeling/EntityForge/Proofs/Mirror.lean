import EntityForge.Proofs.Bundle
import EntityForge.Proofs.Generated
import EntityForge.Proofs.Repository

/-!
When a bundle holds the same files as a disk to which everything has been delivered.

On the disk, of the files that are edited by hand with one path the first one stays; in the bundle it is the
last one. Where two entities share a directory these differ, since a repository tells the name of its
entity. A key of the bundle is no path of the disk where a name steps up, goes nowhere or starts at the root,
and is another path where a name holds a backslash. In all other cases the two agree. Main
statements: `isProper_of_generate_iff`, `backslash_of_generate_iff` and `mirrors_iff`.
-/

namespace EntityForge

open Artifact

/-- The paths of all files lead down by names when all parts of all names but the last ones are names. -/
theorem isProper_of_generate_iff {schema : Schema} {policy : OwnerPolicy} {artifacts : List Artifact}
    (h : schema.generate policy .standard = .ok artifacts) :
    (∀ a ∈ artifacts, a.path.IsProper) ↔
      ∀ entity ∈ schema.entities, ∀ part ∈ (Path.mk entity.name).parts.dropLast, IsName part := by
  have hstem : ∀ base ∈ [Layout.standard.resources, Layout.standard.reference],
      ∀ part ∈ base.stem, IsName part := by
    simpa using ⟨Layout.isName_of_mem_stem.1, Layout.isName_of_mem_stem.2.1⟩
  rw [forall_path_iff h (Q := fun d => ∀ part ∈ (Path.mk d).parts.dropLast, IsName part) ?_ (by decide)]
  · simp only [Schema.directories, List.forall_mem_map, Names.isName_of_mem_kebabPlural]
  · intro base hbase d hd surface tail htail
    rw [← Surface.isProper_file_iff htail (Schema.getLast?_of_mem_directories hd)]
    exact ⟨Path.IsProper.of_join, Path.IsProper.join (hstem base hbase)⟩

namespace Surface

theorem tail?_backslash : ∀ s ∈ all, ∀ x ∈ s.tail?, '\\' ∉ x.2.toList ∧ ∀ part ∈ x.1, '\\' ∉ part.toList := by
  decide

theorem backslash_mem_file {directory : String} {surface : Surface} {tail : List String × String}
    (htail : surface.tail? = some tail) (hplural : directory.toList.getLast? = some 's') :
    '\\' ∈ (file directory tail).text.toList ↔ '\\' ∈ directory.toList := by
  obtain ⟨hending, hwithin⟩ := tail?_backslash surface surface.mem_all tail htail
  obtain ⟨above, last, hparts, -⟩ := Path.parts_of_getLast? hplural (by decide)
  have hdirectory : '\\' ∈ directory.toList ↔ ∃ part ∈ (Path.mk directory).parts, '\\' ∈ part.toList :=
    Path.mem_text_iff (by decide)
  rw [hdirectory, Path.mem_text_iff (by decide), parts_file htail hparts, hparts]
  constructor
  · rintro ⟨part, hpart, hmem⟩
    simp only [List.mem_append, List.mem_singleton] at hpart
    rcases hpart with ((hpart | rfl) | hpart) | hpart | rfl
    · exact ⟨part, by simp [hpart], hmem⟩
    · exact ⟨part, by simp, hmem⟩
    · exact absurd hmem (hwithin part hpart)
    · exact ⟨part, by simp [hpart], hmem⟩
    · rw [String.toList_append, List.mem_append, or_iff_left hending] at hmem
      exact ⟨last, by simp, hmem⟩
  · rintro ⟨part, hpart, hmem⟩
    exact ⟨part, List.mem_append_left _ (List.mem_append_left _ hpart), hmem⟩

end Surface

/-- A path under a directory without backslashes holds one if it held one before. -/
theorem Path.backslash_mem_join {base path : Path} (hbase : '\\' ∉ base.text.toList)
    (hrelative : path.isAbsolute = false) :
    '\\' ∈ (base.join path).text.toList ↔ '\\' ∈ path.text.toList := by
  unfold join
  rw [if_neg (by simp [hrelative])]
  split <;> simp [hbase]

/-- A backslash gets into a path from the name of an entity alone. -/
theorem backslash_of_generate_iff {schema : Schema} {policy : OwnerPolicy} {artifacts : List Artifact}
    (h : schema.generate policy .standard = .ok artifacts)
    (hnames : ∀ entity ∈ schema.entities, ∀ part ∈ (Path.mk entity.name).parts.dropLast, IsName part) :
    (∀ a ∈ artifacts, '\\' ∉ a.path.text.toList) ↔ ∀ entity ∈ schema.entities, '\\' ∉ entity.name.toList := by
  have hbases : ∀ base ∈ [Layout.standard.resources, Layout.standard.reference],
      '\\' ∉ base.text.toList := by decide
  rw [forall_path_iff h (P := fun path => '\\' ∉ path.text.toList) (Q := fun d => '\\' ∉ d.toList) ?_
    (by decide)]
  · simp only [Schema.directories, List.forall_mem_map,
      Names.mark_mem_kebabPlural (by decide : Text.IsMark '\\') (by decide)]
  · intro base hbase d hd surface tail htail
    have hplural := Schema.getLast?_of_mem_directories hd
    have hdirectory := Schema.isProper_directory hnames hd
    have hproper := (Surface.isProper_file_iff htail hplural).2
      fun part hpart => hdirectory part (List.dropLast_subset _ hpart)
    rw [Path.backslash_mem_join (hbases base hbase) hproper.isAbsolute_eq,
      Surface.backslash_mem_file htail hplural]

namespace Disk

/-- The files below a place and their contents are the entries of an object, each under its path from that
place, by names alone. -/
def Mirrors (disk : Disk) (site : Location) (files : Entries Json) : Prop :=
  ∀ key value, files.get? key = some value ↔ (Path.mk key).IsProper ∧
    ∃ contents, value = .string contents ∧
      disk.tree.get? (site ++ (Path.mk key).parts) = some (.file contents)

namespace Mirrors

variable {disk : Disk} {site : Location} {artifacts : List Artifact} {a : Artifact}
  (h : disk.Mirrors site (files artifacts))

include h

theorem isProper (ha : a ∈ artifacts) : a.path.IsProper := by
  obtain ⟨contents, hentry⟩ := exists_entry ha
  exact isProper_of_bundleKey ((h _ _).1 hentry).1

/-- A file on the disk is an entry under its path. -/
theorem get?_text (ha : a ∈ artifacts) {contents : String}
    (hfile : disk.tree.get? (a.place site) = some (.file contents)) :
    (files artifacts).get? a.path.text = some (.string contents) := by
  have hproper := h.isProper ha
  refine (h _ _).2 ⟨hproper, contents, rfl, ?_⟩
  rw [← hfile, Artifact.place, hproper.way_eq]

/-- So no path holds a backslash, since no key does. -/
theorem not_backslash (ha : a ∈ artifacts) {contents : String}
    (hfile : disk.tree.get? (a.place site) = some (.file contents)) : '\\' ∉ a.path.text.toList := by
  obtain ⟨before, b, after, -, hkey, -⟩ := get?_files_iff.1 (h.get?_text ha hfile)
  rw [← hkey]
  exact not_mem_bundleKey b.path

end Mirrors

end Disk

/-- Of files at an empty place there is one in the end. -/
theorem Artifact.exists_file_of_foldl {artifacts : List Artifact} (hne : artifacts ≠ []) :
    ∃ contents, artifacts.foldl settle none = some (.file contents) := by
  have hstays (artifacts : List Artifact) (contents : String) :
      ∃ contents', artifacts.foldl settle (some (.file contents)) = some (.file contents') := by
    induction artifacts generalizing contents with
    | nil => exact ⟨contents, rfl⟩
    | cons a rest ih =>
      rw [List.foldl_cons, settle]
      split
      · exact ih contents
      · exact ih a.contents
  obtain ⟨a, rest, rfl⟩ := List.exists_cons_of_ne_nil hne
  have hfirst : a.settle none = some (.file a.contents) := by
    rw [settle]
    split <;> rfl
  rw [List.foldl_cons, hfirst]
  exact hstays rest a.contents

/-- What a delivery to an empty place leaves: at the place of each file what the files with its path have made of
it, and no other file below. -/
structure Disk.Filled (disk : Disk) (site : Location) (artifacts : List Artifact) : Prop where
  places : ∀ a ∈ artifacts, disk.tree.get? (a.place site) =
    ((Destination.order artifacts).filter fun b => b.path.isSame a.path).foldl settle none
  others : ∀ below contents, below ≠ [] → disk.tree.get? (site ++ below) = some (.file contents) →
    ∃ a ∈ artifacts, site ++ below = a.place site

namespace Disk.Filled

variable {disk : Disk} {site : Location} {artifacts : List Artifact} {a : Artifact}
  (h : disk.Filled site artifacts) (ha : a ∈ artifacts)

include h ha

theorem exists_file : ∃ contents, disk.tree.get? (a.place site) = some (.file contents) := by
  have hself : a ∈ (Destination.order artifacts).filter fun b => b.path.isSame a.path :=
    List.mem_filter.2 ⟨Destination.mem_order.2 ha, beq_self_eq_true _⟩
  rw [h.places a ha]
  exact exists_file_of_foldl (List.ne_nil_of_mem hself)

/-- Where a bundle agrees with the disk, no path holds a backslash. -/
theorem not_backslash (hmirrors : disk.Mirrors site (files artifacts)) : '\\' ∉ a.path.text.toList := by
  obtain ⟨contents, hfile⟩ := h.exists_file ha
  exact hmirrors.not_backslash ha hfile

end Disk.Filled

section Held

variable {before after : List Artifact} {a : Artifact}

/-- The bundle has what comes last for a path, where no path holds a backslash. -/
theorem get?_files_of_last (hplain : ∀ b ∈ before ++ a :: after, '\\' ∉ b.path.text.toList)
    (hlast : ∀ b ∈ after, b.path.components ≠ a.path.components) :
    (files (before ++ a :: after)).get? a.path.text = some (.string a.contents) := by
  refine get?_files_iff.2 ⟨before, a, after, rfl, bundleKey_of_not_mem (hplain a (by simp)), rfl, ?_⟩
  intro b hb hkey
  rw [bundleKey_of_not_mem (hplain b (by simp [hb]))] at hkey
  have hsame : b.path = a.path := congrArg Path.mk hkey
  exact hlast b hb (by rw [hsame])

/-- A file whose path no other file has is what its place holds. -/
theorem foldl_settle_of_alone
    (hother : ∀ b ∈ before ++ after, b.path.components ≠ a.path.components) :
    ((Destination.order (before ++ a :: after)).filter fun b => b.path.isSame a.path).foldl settle none =
      some (.file a.contents) := by
  obtain ⟨hbefore, hafter⟩ := List.forall_mem_append.1 hother
  cases hpolicy : a.policy with
  | skipIfExists =>
    refine foldl_settle_of_first ?_ hbefore none
    intro b hb hsame
    rcases List.mem_append.1 hb with hb | hb
    · exact absurd hsame (hbefore b hb)
    · rcases List.mem_cons.1 hb with rfl | hb
      · exact hpolicy
      · exact absurd hsame (hafter b hb)
  | overwrite => exact foldl_settle_of_last hpolicy (fun b hb _ => hafter b hb) none

end Held

section Empty

variable {schema : Schema} {artifacts : List Artifact}
  (h : schema.generate .standard .standard = .ok artifacts)
  (hnames : ∀ entity ∈ schema.entities, ∀ part ∈ (Path.mk entity.name).parts.dropLast, IsName part)
  {later : Disk} {site : Location}

include h hnames

/-- A delivery to an empty directory that does not fail. -/
theorem filled_of_generate {root : Path} {disk : Disk} (hlinks : disk.tree.Linkless)
    (hroot : disk.entry root = .ok .directory)
    (hempty : ∀ below, below ≠ [] → disk.tree.get? (disk.site root ++ below) = none)
    (hdone : ((Destination.writeAll ⟨root, false⟩ artifacts).run disk).1.failure? = none) :
    ((Destination.writeAll ⟨root, false⟩ artifacts).run disk).2.Filled (disk.site root) artifacts := by
  obtain ⟨hplaces, hfiles⟩ := settled_of_generate h hnames rfl hlinks (fun _ => hroot) hdone
  constructor
  · intro a ha
    rw [hplaces a ha, Artifact.place, hempty _ ((regular_of_generate h hnames).descends a ha).way_ne_nil]
  · intro below contents hne hfile
    refine (hfiles _ _ hfile).resolve_left ?_
    rw [hempty below hne]
    simp

variable (hfilled : later.Filled site artifacts)

include hfilled

/-- Where a bundle agrees with the disk, no two entities share a directory. -/
theorem nodup_of_mirrors (hdistinct : (schema.entities.map Entity.name).Nodup)
    (hmirrors : later.Mirrors site (files artifacts)) : schema.directories.Nodup := by
  by_contra hshared
  obtain ⟨before, first, after, before', last, after', hfirstSplit, hlastSplit, hpath, hpolicy, hcontents,
    hfirst, hlast⟩ := exists_first_last_of_shared h hnames hshared hdistinct
  have hfirstMem : first ∈ artifacts := by simp [hfirstSplit]
  have hlastMem : last ∈ artifacts := by simp [hlastSplit]
  have hskip : ∀ b ∈ artifacts, b.path.components = first.path.components → b.policy = .skipIfExists := by
    intro b hb hsame
    obtain ⟨below, hbelow⟩ := components_of_policy h hnames hb
    obtain ⟨more, hmore⟩ := components_of_policy h hnames hfirstMem
    rw [hbelow, hmore, hpolicy] at hsame
    cases hbPolicy : b.policy
    · rfl
    · rw [hbPolicy] at hsame
      exact absurd (List.cons.inj hsame).1 (by decide)
  have hdisk : later.tree.get? (first.place site) = some (.file first.contents) := by
    rw [hfilled.places first hfirstMem]
    rw [hfirstSplit] at hskip ⊢
    rw [foldl_settle_of_first hskip hfirst none]
  have hentry := hmirrors.get?_text hfirstMem hdisk
  have hplain (a : Artifact) (ha : a ∈ artifacts) := hfilled.not_backslash ha hmirrors
  rw [hlastSplit] at hplain
  have hkey := get?_files_of_last hplain hlast
  rw [← hlastSplit, ← hpath, hentry] at hkey
  exact hcontents (Json.string.inj (Option.some.inj hkey))

/-- Where no two entities share a directory and no name holds a backslash, a bundle agrees with the disk. -/
theorem mirrors_of_nodup (hplain : ∀ a ∈ artifacts, '\\' ∉ a.path.text.toList)
    (hdirectories : schema.directories.Nodup) : later.Mirrors site (files artifacts) := by
  have hproper := (isProper_of_generate_iff h).2 hnames
  have hnodup : (artifacts.map fun a => a.path.components).Nodup := by
    rw [nodup_components_iff h]
    constructor
    · intro entity hentity
      have hrelative := (Schema.isProper_directory hnames (List.mem_map_of_mem hentity)).head?_ne
      rwa [ne_eq, Names.head?_kebabPlural] at hrelative
    · exact hdirectories.map_on fun d hd e he => trail_inj hnames hd he
  -- the place of a file holds what the bundle has under its path
  have hheld {a : Artifact} (ha : a ∈ artifacts) :
      later.tree.get? (a.place site) = some (.file a.contents) ∧
        (files artifacts).get? a.path.text = some (.string a.contents) := by
    obtain ⟨before, after, hsplit⟩ := List.append_of_mem ha
    have hother := ne_of_nodup_map (hsplit ▸ hnodup)
    rw [hfilled.places a ha]
    rw [hsplit] at hplain ⊢
    exact ⟨foldl_settle_of_alone hother,
      get?_files_of_last hplain fun b hb => hother b (List.mem_append_right before hb)⟩
  have hplace {a : Artifact} (ha : a ∈ artifacts) : a.place site = site ++ a.path.parts := by
    rw [Artifact.place, (hproper a ha).way_eq]
  intro key value
  constructor
  · intro hentry
    obtain ⟨before, a, after, hsplit, rfl, rfl, -⟩ := get?_files_iff.1 hentry
    have ha : a ∈ artifacts := by simp [hsplit]
    rw [bundleKey_of_not_mem (hplain a ha)]
    exact ⟨hproper a ha, a.contents, rfl, by rw [← (hheld ha).1, hplace ha]⟩
  · rintro ⟨hkey, contents, rfl, hfile⟩
    obtain ⟨a, ha, hsame⟩ := hfilled.others _ _ (Path.parts_ne_nil _) hfile
    rw [hplace ha, List.append_cancel_left_eq] at hsame
    obtain rfl : key = a.path.text := congrArg Path.text (Path.eq_of_parts hsame)
    obtain ⟨hdisk, hentry⟩ := hheld ha
    rw [← hplace ha, hdisk] at hfile
    rw [hentry, Entry.file.inj (Option.some.inj hfile)]

end Empty

/-- What is generated from a text is a bundle, whose text is read back as an object of its files. Delivered to
an empty directory without a failure, the files are the entries of that object exactly when no two entities
share a directory, no name holds a backslash, and all parts of a name but the last one are names of places. -/
theorem mirrors_iff {text : String} {artifacts : List Artifact} (h : generateFromText text = .ok artifacts)
    {root : Path} {disk : Disk} (hlinks : disk.tree.Linkless) (hroot : disk.entry root = .ok .directory)
    (hempty : ∀ below, below ≠ [] → disk.tree.get? (disk.site root ++ below) = none)
    (hdone : ((Destination.writeAll ⟨root, false⟩ artifacts).run disk).1.failure? = none) :
    ∃ schema bundle files, Schema.ofText text = .ok schema ∧ bundleFromText text = .ok bundle ∧
      Json.parse bundle = .ok (.object files) ∧
      (((Destination.writeAll ⟨root, false⟩ artifacts).run disk).2.Mirrors (disk.site root) files ↔
        schema.directories.Nodup ∧ ∀ entity ∈ schema.entities, '\\' ∉ entity.name.toList ∧
          ∀ part ∈ (Path.mk entity.name).parts.dropLast, IsName part) := by
  obtain ⟨schema, hschema, hgenerate⟩ := bind_eq_ok.1 h
  have hgenerate := mapError_eq_ok.1 hgenerate
  have hbundle : bundleFromText text = .ok (bundle artifacts).compactText := by
    rw [bundleFromText, h]
    rfl
  refine ⟨schema, _, files artifacts, hschema, hbundle, parse_bundle artifacts, ?_⟩
  have hdistinct := (Schema.wellFormed_of_ofText hschema).1.names
  constructor
  · intro hmirrors
    have hnames := (isProper_of_generate_iff hgenerate).1 fun a => hmirrors.isProper
    have hfilled := filled_of_generate hgenerate hnames hlinks hroot hempty hdone
    refine ⟨nodup_of_mirrors hgenerate hnames hfilled hdistinct hmirrors, ?_⟩
    intro entity hentity
    have hplain := (backslash_of_generate_iff hgenerate hnames).1 fun a ha => hfilled.not_backslash ha hmirrors
    exact ⟨hplain entity hentity, hnames entity hentity⟩
  · rintro ⟨hdirectories, hentities⟩
    have hnames := fun entity hentity => (hentities entity hentity).2
    have hfilled := filled_of_generate hgenerate hnames hlinks hroot hempty hdone
    refine mirrors_of_nodup hgenerate hnames hfilled ?_ hdirectories
    exact (backslash_of_generate_iff hgenerate hnames).2 fun entity hentity => (hentities entity hentity).1

/-- A document with one entity and nothing but a key in it. -/
def tags.text : String :=
  "\x7b\"models\": \x7b\"Tag\": \x7b\"tableName\": \"tags\", \"fields\": " ++
    "\x7b\"id\": \x7b\"dataType\": \"integer\", \"primaryKey\": true\x7d\x7d\x7d\x7d\x7d"

def tags : Schema where
  entities := [
    { name := "Tag"
      tableName := "tags"
      fields := [⟨"id", .integer, false, true, false, none, none, none, none⟩]
      indexes := []
      relations := [] }]
  api := .standard

theorem tags_ofText : Schema.ofText tags.text = .ok tags := by decide +kernel

def tags.subjects : List Subject := tags.entities.map fun entity => Subject.of .standard ⟨entity, []⟩

theorem tags_subjects : Schema.subjects tags .standard = .ok tags.subjects := by decide

def tags.artifacts : List Artifact :=
  tags.subjects.flatMap (scaffold .standard) ++
    Aggregate.artifacts .standard tags.subjects
      ((tags.subjects.map fun subject => OpenApi.fragment subject.entity).foldl Json.merge
        (PublishedApi.header tags.api))

theorem tags_generate : tags.generate .standard .standard = .ok tags.artifacts := by
  rw [Schema.generate_eq, tags_subjects]
  rfl

theorem tags_generateFromText : generateFromText tags.text = .ok tags.artifacts :=
  bind_eq_ok.2 ⟨tags, tags_ofText, mapError_eq_ok.2 tags_generate⟩

theorem linkless_empty : Disk.empty.tree.Linkless := FileTree.link?_of_entries (by decide)

theorem entry_empty : Disk.empty.entry ⟨"."⟩ = .ok .directory := by decide

theorem get?_empty (below : Location) (hne : below ≠ []) :
    Disk.empty.tree.get? (Disk.empty.site ⟨"."⟩ ++ below) = none := by
  have hsite : Disk.empty.site ⟨"."⟩ = [] := by decide
  rw [hsite, List.nil_append, FileTree.get?, if_neg hne]
  rfl

theorem tags_delivered :
    ((Destination.writeAll ⟨⟨"."⟩, false⟩ tags.artifacts).run .empty).1.failure? = none :=
  succeeds_of_generate tags_generate (by decide) (by decide) rfl (by decide) (by decide) linkless_empty
    entry_empty get?_empty

/-- Where there is one entity only, what is delivered and the bundle agree. -/
theorem mirrors_for_tags :
    generateFromText tags.text = .ok tags.artifacts ∧ Disk.empty.tree.Linkless ∧
      Disk.empty.entry ⟨"."⟩ = .ok .directory ∧
      (∀ below, below ≠ [] → Disk.empty.tree.get? (Disk.empty.site ⟨"."⟩ ++ below) = none) ∧
      ((Destination.writeAll ⟨⟨"."⟩, false⟩ tags.artifacts).run .empty).1.failure? = none ∧
      ∃ bundle files, bundleFromText tags.text = .ok bundle ∧ Json.parse bundle = .ok (.object files) ∧
        ((Destination.writeAll ⟨⟨"."⟩, false⟩ tags.artifacts).run .empty).2.Mirrors
          (Disk.empty.site ⟨"."⟩) files := by
  obtain ⟨schema, bundle, files, hschema, hbundle, hparse, hiff⟩ :=
    mirrors_iff tags_generateFromText linkless_empty entry_empty get?_empty tags_delivered
  obtain rfl : tags = schema := Except.ok.inj (tags_ofText.symm.trans hschema)
  refine ⟨tags_generateFromText, linkless_empty, entry_empty, get?_empty, tags_delivered, bundle, files, hbundle,
    hparse, hiff.2 ?_⟩
  decide

end EntityForge
