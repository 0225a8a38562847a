import EntityForge.Proofs.Collision
import EntityForge.Proofs.Rerun
import EntityForge.Proofs.Success

/-!
What is generated with the standard layout, delivered to a disk without links.

No file of it lies within another one if that is true of the copies for reference, and none is called like a
temporary file. So a delivery of it that does not fail leaves at each place what the files with its path
have made of it; and in an empty directory it does not fail where the names of the entities are short
names of places. Main statements: `settled_of_generate` and `succeeds_of_generate`.
-/

namespace EntityForge

open Artifact

section Generated

variable {schema : Schema} {policy : OwnerPolicy} {artifacts : List Artifact}
  (h : schema.generate policy .standard = .ok artifacts)
  (hnames : ∀ entity ∈ schema.entities, ∀ part ∈ (Path.mk entity.name).parts.dropLast, IsName part)

include h hnames

theorem regular_of_generate : Regular artifacts where
  descends a ha := (path_of_generate_of_parts h hnames ha).1.descends
  lasting a ha names name _ hway := by
    obtain ⟨hproper, htemporary, -⟩ := path_of_generate_of_parts h hnames ha
    rw [hproper.way_eq] at hway
    exact htemporary ⟨names, name, hway⟩

/-- The first place of a path says what is done with a file that is there already. -/
theorem components_of_policy {a : Artifact} (ha : a ∈ artifacts) :
    ∃ below, a.path.components =
      .name (match a.policy with
        | .skipIfExists => "resources"
        | .overwrite => "generated") :: below := by
  obtain ⟨hproper, -, below, hparts⟩ := path_of_generate_of_parts h hnames ha
  exact ⟨below.map Path.Component.name, by rw [hproper.components_eq_map, hparts]; rfl⟩

/-- Every file that is edited by hand has a copy for reference. -/
theorem exists_copy {a : Artifact} (ha : a ∈ artifacts) (hpolicy : a.policy = .skipIfExists) :
    ∃ copy ∈ artifacts, copy.policy = .overwrite ∧
      copy.path.components = .name "generated" :: a.path.components := by
  have hplacement := (exists_artifact_iff h).1 ⟨a, ha, rfl, hpolicy⟩
  obtain ⟨d, hd, surface, tail, htail, hpath⟩ : ∃ d ∈ schema.directories, ∃ surface tail,
      Surface.tail? surface = some tail ∧
        a.path = Layout.standard.resources.join (Surface.file d tail) := by
    simpa [mem_placements] using hplacement
  obtain ⟨copy, hcopy, hcopyPath, hoverwrite⟩ := (exists_artifact_iff h).2 (mem_placements.2
    (Or.inl ⟨d, hd, surface, tail, htail, Or.inr ⟨rfl, rfl⟩⟩))
  obtain ⟨hresources, hreference⟩ := components_standard (Schema.getLast?_of_mem_directories hd)
    ((Schema.isProper_directory hnames hd).head?_ne) tail
  exact ⟨copy, hcopy, hoverwrite, by rw [hcopyPath, hpath, hreference, hresources]⟩

/-- No file lies within another one if no copy for reference does. -/
theorem apart_of_generate
    (hapart : ∀ a ∈ artifacts, ∀ b ∈ artifacts, a.policy = .overwrite → b.policy = .overwrite →
      a.path.components <+: b.path.components → a.path.components = b.path.components)
    {a b : Artifact} (ha : a ∈ artifacts) (hb : b ∈ artifacts)
    (hbegins : a.path.components <+: b.path.components) : a.path.components = b.path.components := by
  obtain ⟨above, habove⟩ := components_of_policy h hnames ha
  obtain ⟨below, hbelow⟩ := components_of_policy h hnames hb
  cases haPolicy : a.policy <;> cases hbPolicy : b.policy
  · obtain ⟨copy, hcopy, hcopyPolicy, hcopyPath⟩ := exists_copy h hnames ha haPolicy
    obtain ⟨other, hother, hotherPolicy, hotherPath⟩ := exists_copy h hnames hb hbPolicy
    have hsame := hapart copy hcopy other hother hcopyPolicy hotherPolicy (by
      rw [hcopyPath, hotherPath]
      exact (List.prefix_cons_inj _).2 hbegins)
    rw [hcopyPath, hotherPath] at hsame
    exact (List.cons.inj hsame).2
  · rw [habove, hbelow, haPolicy, hbPolicy] at hbegins
    have hfirst := (List.cons_prefix_cons.1 hbegins).1
    exact absurd hfirst (by decide)
  · rw [habove, hbelow, haPolicy, hbPolicy] at hbegins
    have hfirst := (List.cons_prefix_cons.1 hbegins).1
    exact absurd hfirst (by decide)
  · exact hapart a ha b hb haPolicy hbPolicy hbegins

/-- What becomes of files that are generated and delivered without a failure: the place of each holds what the
files with its path have made of it, and there is no new file anywhere else. -/
theorem settled_of_generate {destination : Destination} (hreal : destination.dryRun = false) {disk : Disk}
    (hlinks : disk.tree.Linkless)
    (hroot : ".." ∈ destination.root.parts → disk.entry destination.root = .ok .directory)
    (hdone : ((destination.writeAll artifacts).run disk).1.failure? = none) :
    let site := disk.site destination.root
    let later := ((destination.writeAll artifacts).run disk).2
    (∀ a ∈ artifacts, later.tree.get? (a.place site) =
      ((Destination.order artifacts).filter fun b => b.path.isSame a.path).foldl settle
        (disk.tree.get? (a.place site))) ∧
      ∀ location contents, later.tree.get? location = some (.file contents) →
        disk.tree.get? location = some (.file contents) ∨ ∃ a ∈ artifacts, location = a.place site := by
  intro site later
  have hfirm := Disk.firm_of_entry hlinks hroot
  have hregular := regular_of_generate h hnames
  obtain ⟨horder, hsettles⟩ := Destination.settles_of_writeEach hreal
    (fun a ha => hregular.descends a (Destination.mem_order.1 ha)) hfirm rfl hdone
  have hdelivered : ∀ d ∈ ((destination.writeAll artifacts).run disk).1.delivered, d.1 ∈ artifacts :=
    fun d hd => Destination.mem_of_delivered horder hd
  -- that the delivery has not failed says that no file lies within another one
  have hapart : ∀ b ∈ artifacts, ∀ a ∈ artifacts, b.path.components <+: a.path.components →
      b.path.components = a.path.components := by
    intro b hb a ha
    refine apart_of_generate h hnames (fun a ha b hb => ?_) hb ha
    rw [← Destination.mem_order, ← horder] at ha hb
    exact hsettles.apart_of_overwritten hregular hdelivered ha hb
  have hclear : ∀ a ∈ artifacts, ∀ b ∈ artifacts, ¬destination.Encloses disk a (b.place site) := by
    intro a ha b hb hencloses
    exact hencloses.opened.ne_place (List.forall_mem_singleton.2 ha) hb hregular
      (List.forall_mem_singleton.2 (hapart b hb a ha)) rfl
  constructor
  · intro a ha
    have hplace := hsettles.get?_place hregular hclear hdelivered ha
    rwa [horder] at hplace
  · intro location contents hfile
    by_cases hplace : ∃ a ∈ artifacts, location = a.place site
    · exact Or.inr hplace
    · refine Or.inl (hsettles.file_before hregular hdelivered ?_ hfile)
      intro d hd hlocation
      exact hplace ⟨d.1, hdelivered d hd, hlocation⟩

end Generated

/-- A name that leaves room for that of a temporary file, which it is not. -/
structure IsOrdinary (part : String) : Prop where
  plain : '\x00' ∉ part.toList
  lasting : part.toList.getLast? ≠ some 'p'
  short : part.utf8ByteSize + 5 ≤ FileTree.nameLimit

instance (part : String) : Decidable (IsOrdinary part) :=
  decidable_of_iff (_ ∧ _ ∧ _) ⟨fun h => ⟨h.1, h.2.1, h.2.2⟩, fun h => ⟨h.plain, h.lasting, h.short⟩⟩

theorem bytes_temporary (name : String) : ("." ++ name ++ ".tmp").utf8ByteSize = name.utf8ByteSize + 5 := by
  have hdot : ".".utf8ByteSize = 1 := by decide
  have hending : ".tmp".utf8ByteSize = 4 := by decide
  rw [String.utf8ByteSize_append, String.utf8ByteSize_append, hdot, hending]
  omega

/-- A few ordinary names in a row fit below a root that takes up no more than half of a path. -/
theorem Artifact.fits_of_ordinary {root : Path} {a : Artifact} (hproper : a.path.IsProper)
    (hparts : ∀ part ∈ a.path.parts, IsOrdinary part) (hlength : a.path.parts.length ≤ 5)
    (hroot : '\x00' ∉ root.text.toList) (hshort : root.text.utf8ByteSize ≤ 2048) : a.Fits root := by
  have hplain : '\x00' ∉ a.path.text.toList := by
    rw [Path.mem_text_iff (by decide)]
    rintro ⟨part, hpart, hmem⟩
    exact (hparts part hpart).plain hmem
  have hlimit (part : String) (hpart : part ∈ a.path.parts) : part.utf8ByteSize < 251 := by
    have hroom : part.utf8ByteSize + 5 ≤ 255 := (hparts part hpart).short
    omega
  have hbytes : a.path.text.utf8ByteSize < 5 * 251 :=
    (Path.bytes_le hlimit).trans_le (Nat.mul_le_mul_right 251 hlength)
  have hpathLimit : Disk.pathLimit = 4095 := rfl
  have htarget : (root.join a.path).Sendable :=
    Path.Sendable.join hproper.isAbsolute_eq hroot hplain (by omega)
  refine ⟨hproper, ?_, ?_, htarget, ?_⟩
  · intro part hpart
    exact (Nat.le_add_right _ 5).trans (hparts part hpart).short
  · intro names name hpath
    rw [bytes_temporary]
    exact (hparts name (by simp [hpath])).short
  · obtain ⟨names, name, hpath⟩ : ∃ names name, a.path.parts = names ++ [name] :=
      ⟨_, _, (List.dropLast_append_getLast a.path.parts_ne_nil).symm⟩
    have hmem : name ∈ a.path.parts := by simp [hpath]
    have hway : (root.join a.path).way = root.way ++ names ++ [name] := by
      rw [Path.way_join hproper.isAbsolute_eq, hproper.way_eq, hpath, List.append_assoc]
    obtain ⟨parent, hstaging, -, -, hparent⟩ := Disk.staging_eq hway (hproper name hmem).ne_up
    obtain ⟨htemporary, -⟩ := Disk.isProper_temporary (Path.not_mem_of_mem_parts hmem)
    have habove := Path.bytes_of_mem_ancestors hparent
    have hwhole := Path.bytes_join_le root hproper.isAbsolute_eq
    have hname := hlimit name hmem
    rw [hstaging]
    refine Path.Sendable.join htemporary.isAbsolute_eq (htarget.ancestor hparent).plain ?_ ?_
    · simpa using (hparts name hmem).plain
    · rw [bytes_temporary]
      omega

/-- Nothing is in the way of a file where the directory is missing that its path begins with. -/
theorem Disk.admits_of_vacant {disk : Disk} {site : Location} {a : Artifact} {first : String} {rest : List String}
    (hway : a.path.way = first :: rest) (hrest : rest ≠ [])
    (hvacant : ∀ below, disk.tree.get? (site ++ first :: below) = none) : disk.Admits site a := by
  obtain ⟨within, name, rfl⟩ : ∃ within name, rest = within ++ [name] :=
    ⟨_, _, (List.dropLast_append_getLast hrest).symm⟩
  have hplace : a.place site = site ++ first :: within ++ [name] := by
    rw [Artifact.place, hway, List.append_assoc, List.cons_append]
  constructor
  · intro below hne hbegins _
    obtain ⟨begin, more, rfl⟩ := List.exists_cons_of_ne_nil hne
    rw [hway, List.cons_prefix_cons] at hbegins
    rw [hbegins.1, hvacant]
    exact Or.inl rfl
  · rw [hplace, List.append_assoc, List.cons_append, hvacant]
    simp
  · rw [hplace, beside_concat, List.append_assoc, List.cons_append, hvacant]
    simp

namespace Surface

theorem tail?_ordinary : ∀ s ∈ all, ∀ x ∈ s.tail?, '\x00' ∉ x.2.toList ∧ x.2.utf8ByteSize ≤ 14 ∧
    x.1.length ≤ 1 ∧ ∀ part ∈ x.1, IsOrdinary part := by decide

end Surface

/-- The directories above those of the entities, for files that are treated in one way. -/
def WritePolicy.stem : WritePolicy → List String
  | .skipIfExists => ["resources"]
  | .overwrite => ["generated", "resources"]

theorem WritePolicy.isOrdinary_of_mem_stem (policy : WritePolicy) : ∀ part ∈ policy.stem, IsOrdinary part := by
  cases policy <;> decide

theorem Aggregate.isOrdinary_of_mem_names : ∀ name ∈ names, IsOrdinary name := by decide

section Ordinary

variable {schema : Schema} {policy : OwnerPolicy} {artifacts : List Artifact}
  (h : schema.generate policy .standard = .ok artifacts)
  (hslash : ∀ entity ∈ schema.entities, '/' ∉ entity.name.toList) {a b : Artifact} (ha : a ∈ artifacts)

include h hslash ha

/-- The path of a file, where no name holds a slash. -/
theorem parts_of_generate :
    (∃ directory ∈ schema.directories, ∃ surface tail, Surface.tail? surface = some tail ∧
      a.path.parts = a.policy.stem ++ directory :: (tail.1 ++ [directory ++ tail.2])) ∨
      ∃ name ∈ Aggregate.names, a.policy = .overwrite ∧ a.path.parts = ["generated", name] := by
  obtain ⟨hresources, hreference, hgenerated⟩ := Layout.stem_standard
  rcases mem_placements.1 ((exists_artifact_iff h).1 ⟨a, ha, rfl, rfl⟩) with
    ⟨directory, hdirectory, surface, tail, htail, hcopy⟩ | ⟨name, hname, hpath, hpolicy⟩
  · left
    refine ⟨directory, hdirectory, surface, tail, htail, ?_⟩
    have hplain := Schema.not_slash_mem_directory hslash hdirectory
    have hproper := Surface.isProper_file htail hplain (Schema.getLast?_of_mem_directories hdirectory)
    have hparts := Surface.parts_file_of_name htail hplain
    rcases hcopy with ⟨hpath, hpolicy⟩ | ⟨hpath, hpolicy⟩
    · rw [hpath, hpolicy, Path.parts_join hproper.isAbsolute_eq, hresources, hparts]
      rfl
    · rw [hpath, hpolicy, Path.parts_join hproper.isAbsolute_eq, hreference, hparts]
      rfl
  · right
    obtain ⟨hplain, c, hlast, -⟩ := Aggregate.last_of_mem_names hname
    have hparts : (Path.mk name).parts = [name] := Path.parts_of_not_mem hplain
    have hrelative : (Path.mk name).isAbsolute = false := by
      by_contra habsolute
      obtain ⟨-, hmore⟩ := (Path.isAbsolute_iff hparts).1 (by simpa using habsolute)
      exact hmore rfl
    exact ⟨name, hname, hpolicy, by rw [hpath, Path.parts_join hrelative, hgenerated, hparts]; rfl⟩

/-- A generated file lies within a directory of those of its kind. -/
theorem exists_within_of_generate :
    ∃ first ∈ ["resources", "generated"], ∃ rest, rest ≠ [] ∧ a.path.parts = first :: rest := by
  rcases parts_of_generate h hslash ha with
    ⟨directory, -, surface, tail, -, hparts⟩ | ⟨name, -, -, hparts⟩
  · cases hpolicy : a.policy <;> rw [hpolicy] at hparts
    · exact ⟨"resources", by simp, _, List.cons_ne_nil _ _, hparts⟩
    · exact ⟨"generated", by simp, _, List.cons_ne_nil _ _, hparts⟩
  · exact ⟨"generated", by simp, [name], List.cons_ne_nil name [], hparts⟩

/-- All parts of a path are ordinary where the directories are, with room for the endings of the files. -/
theorem isOrdinary_of_generate
    (hdirectories : ∀ directory ∈ schema.directories, '\x00' ∉ directory.toList ∧
      directory.utf8ByteSize + 19 ≤ FileTree.nameLimit) :
    a.path.parts.length ≤ 5 ∧ ∀ part ∈ a.path.parts, IsOrdinary part := by
  rcases parts_of_generate h hslash ha with
    ⟨directory, hdirectory, surface, tail, htail, hparts⟩ | ⟨name, hname, -, hparts⟩
  · obtain ⟨hplain, hshort⟩ := hdirectories directory hdirectory
    obtain ⟨hendingPlain, hendingShort, hlength, htailOrdinary⟩ :=
      Surface.tail?_ordinary surface surface.mem_all tail htail
    have hlast := Schema.getLast?_of_mem_directories hdirectory
    have hending := Surface.getLast?_ending htail directory
    rw [hparts]
    constructor
    · have hstem : a.policy.stem.length ≤ 2 := by cases a.policy <;> decide
      simp only [List.length_append, List.length_cons, List.length_nil]
      omega
    · rw [List.forall_mem_append, List.forall_mem_cons, List.forall_mem_append, List.forall_mem_singleton]
      refine ⟨a.policy.isOrdinary_of_mem_stem, ⟨hplain, by simp [hlast], by omega⟩, htailOrdinary, ?_, ?_, ?_⟩
      · simp [hplain, hendingPlain]
      · rw [hending]
        decide
      · rw [String.utf8ByteSize_append]
        omega
  · have hgenerated : IsOrdinary "generated" := by decide
    simp [hparts, hgenerated, Aggregate.isOrdinary_of_mem_names name hname]

/-- No copy for reference lies within another one, where no name holds a slash. -/
theorem apart_of_not_slash (hb : b ∈ artifacts) (haPolicy : a.policy = .overwrite)
    (hbPolicy : b.policy = .overwrite) (hbegins : a.path.parts <+: b.path.parts) :
    a.path.parts = b.path.parts := by
  have hresources : "resources" ∉ Aggregate.names := by decide
  rcases parts_of_generate h hslash ha with
      ⟨directory, hdirectory, surface, tail, htail, hparts⟩ | ⟨name, hname, -, hparts⟩ <;>
    rcases parts_of_generate h hslash hb with
      ⟨other, hother, surface', tail', htail', hparts'⟩ | ⟨name', hname', -, hparts'⟩ <;>
    rw [hparts, hparts'] at hbegins ⊢
  · rw [haPolicy, hbPolicy, List.prefix_append_right_inj, List.cons_prefix_cons] at hbegins
    rw [haPolicy, hbPolicy]
    obtain ⟨rfl, hbegins⟩ := hbegins
    rcases List.prefix_concat_iff.1 hbegins with hsame | hwithin
    · rw [hsame]
    · -- a file is called like a directory that files lie in
      obtain ⟨-, -, hends⟩ := Surface.tail?_plain surface' surface'.mem_all tail' htail'
      obtain ⟨-, hlast⟩ := hends (directory ++ tail.2) (hwithin.subset (by simp))
      rw [Surface.getLast?_ending htail directory] at hlast
      exact absurd hlast (by decide)
  · rw [haPolicy] at hbegins
    have hbelow := (List.cons_prefix_cons.1 hbegins).2
    obtain rfl := (List.cons_prefix_cons.1 hbelow).1
    exact absurd hname' hresources
  · rw [hbPolicy] at hbegins
    have hbelow := (List.cons_prefix_cons.1 hbegins).2
    obtain rfl := (List.cons_prefix_cons.1 hbelow).1
    exact absurd hname hresources
  · exact hbegins.eq_of_length rfl

end Ordinary

section Success

variable {schema : Schema} {policy : OwnerPolicy} {artifacts : List Artifact}
  (h : schema.generate policy .standard = .ok artifacts)
  (hslash : ∀ entity ∈ schema.entities, '/' ∉ entity.name.toList)
  (hdirectories : ∀ directory ∈ schema.directories, '\x00' ∉ directory.toList ∧
    directory.utf8ByteSize + 19 ≤ FileTree.nameLimit)

include h hslash hdirectories

theorem orderly_of_generate : Orderly artifacts where
  descends a ha := (path_of_generate h hslash ha).1.descends
  lasting a ha name _ := by
    have hproper := (path_of_generate h hslash ha).1
    refine lasting_of_getLast? hproper.descends ?_ name
    intro part hpart
    rw [hproper.way_eq] at hpart
    exact ((isOrdinary_of_generate h hslash ha hdirectories).2 part hpart).lasting
  apart a ha b hb := by
    refine apart_of_generate h (Schema.isName_of_not_slash hslash) ?_ ha hb
    intro a ha b hb haPolicy hbPolicy hbegins
    have hproper := (path_of_generate h hslash ha).1
    have hotherProper := (path_of_generate h hslash hb).1
    have hinjective : Function.Injective Path.Component.name := fun _ _ => Path.Component.name.inj
    rw [hproper.components_eq_map, hotherProper.components_eq_map] at hbegins ⊢
    rw [apart_of_not_slash h hslash ha hb haPolicy hbPolicy ((List.prefix_map_iff_of_injective hinjective).1 hbegins)]

/-- What is generated is delivered without a failure to a directory in which the directories of generated files are
missing, where all names are short names of places and the directory itself has no long name. -/
theorem succeeds_of_vacant {destination : Destination} (hreal : destination.dryRun = false)
    (hplain : '\x00' ∉ destination.root.text.toList) (hshort : destination.root.text.utf8ByteSize ≤ 2048)
    {disk : Disk} (hlinks : disk.tree.Linkless) (hroot : disk.entry destination.root = .ok .directory)
    (hvacant : ∀ first ∈ ["resources", "generated"], ∀ below,
      disk.tree.get? (disk.site destination.root ++ first :: below) = none) :
    ((destination.writeAll artifacts).run disk).1.failure? = none := by
  have horderly := orderly_of_generate h hslash hdirectories
  refine delivery_succeeds hreal horderly ?_ hlinks hroot ?_
  · intro a ha
    obtain ⟨hlength, hordinary⟩ := isOrdinary_of_generate h hslash ha hdirectories
    exact fits_of_ordinary (path_of_generate h hslash ha).1 hordinary hlength hplain hshort
  · intro a ha
    obtain ⟨first, hfirst, rest, hrest, hparts⟩ := exists_within_of_generate h hslash ha
    refine Disk.admits_of_vacant ?_ hrest (hvacant first hfirst)
    rw [(path_of_generate h hslash ha).1.way_eq, hparts]

/-- In particular, to an empty directory. -/
theorem succeeds_of_generate {destination : Destination} (hreal : destination.dryRun = false)
    (hplain : '\x00' ∉ destination.root.text.toList) (hshort : destination.root.text.utf8ByteSize ≤ 2048)
    {disk : Disk} (hlinks : disk.tree.Linkless) (hroot : disk.entry destination.root = .ok .directory)
    (hempty : ∀ below, below ≠ [] → disk.tree.get? (disk.site destination.root ++ below) = none) :
    ((destination.writeAll artifacts).run disk).1.failure? = none :=
  succeeds_of_vacant h hslash hdirectories hreal hplain hshort hlinks hroot
    fun first _ below => hempty (first :: below) (List.cons_ne_nil first below)

end Success

end EntityForge
