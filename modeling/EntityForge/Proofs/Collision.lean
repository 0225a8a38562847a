import EntityForge.Proofs.JoinColumn
import EntityForge.Proofs.Placement
import EntityForge.Proofs.PublishedApi

/-!
When two generated files have the same path.

The end of a file's name tells its surface, and no file about all entities ends as a file of one does. So
two files get in each other's way only as copies of the same surface, either because both copies go to one
directory or because two entities share one. Main statements: `separate_iff_apart`, `apart_iff_of_names`
and `nodup_components_iff`.
-/

namespace EntityForge

namespace Path

/-- A path that names a place ends in it wherever it is put. -/
theorem getLast?_components_join {base path : Path} {last : Component}
    (h : path.trail.getLast? = some last) : (base.join path).components.getLast? = some last := by
  have htrail : (base.join path).trail.getLast? = some last := by
    by_cases habsolute : path.isAbsolute = true
    · have hjoin : base.join path = path := by
        unfold join
        rw [if_pos habsolute]
      rw [hjoin, h]
    · rw [trail_join (by simpa using habsolute), List.getLast?_append, h]
      rfl
  rw [components_eq, List.getLast?_append, htrail]
  rfl

end Path

/-- What ends a file about all entities ends no file of an entity: in front of it stands no plural. -/
theorem aggregate_endings : ∀ name ∈ Aggregate.names, ∀ surface ∈ Surface.all,
    ∀ tail ∈ Surface.tail? surface, tail.2.toList <:+ name.toList →
      (name.toList.take (name.toList.length - tail.2.toList.length)).getLast? ≠ some 's' := by
  decide

theorem trail_aggregate : ∀ name ∈ Aggregate.names, (Path.mk name).trail = [.name name] := by
  decide

/-- A file about all entities ends in its name wherever it is put. -/
theorem getLast?_components_aggregate {name : String} (hname : name ∈ Aggregate.names) (base : Path) :
    (base.join ⟨name⟩).components.getLast? = some (.name name) := by
  refine Path.getLast?_components_join ?_
  rw [trail_aggregate name hname]
  rfl

namespace Surface

/-- The place at the end of a file: the last name of the directory, and the ending. -/
theorem getLast?_trail_file {directory : String} {surface : Surface} {tail : List String × String}
    (htail : surface.tail? = some tail) (hdirectory : directory.toList.getLast? = some 's') :
    ∃ last, last.toList.getLast? = some 's' ∧
      (file directory tail).trail.getLast? = some (.name (last ++ tail.2)) := by
  obtain ⟨above, last, hparts, hlast⟩ := Path.parts_of_getLast? hdirectory (by decide)
  refine ⟨last, hlast, ?_⟩
  rw [trail_file htail hparts hlast, List.getLast?_concat]

variable {base other : Path} {directory another : String} {s t : Surface}
  {x y : List String × String}

/-- Files at one path are of one surface, whatever they are put under. -/
theorem surface_of_components (hs : s.tail? = some x) (ht : t.tail? = some y)
    (hdirectory : directory.toList.getLast? = some 's') (hanother : another.toList.getLast? = some 's')
    (h : (base.join (file directory x)).components = (other.join (file another y)).components) :
    s = t := by
  obtain ⟨last, -, hfile⟩ := getLast?_trail_file hs hdirectory
  obtain ⟨last', -, hfile'⟩ := getLast?_trail_file ht hanother
  have hlast := congrArg List.getLast? h
  rw [Path.getLast?_components_join hfile, Path.getLast?_components_join hfile'] at hlast
  exact surface_of_ending hs ht (Path.Component.name.inj (Option.some.inj hlast))

/-- No file of an entity is called as a file about all entities is. -/
theorem append_ending_ne_aggregate (hs : s.tail? = some x) {last name : String}
    (hlast : last.toList.getLast? = some 's') (hname : name ∈ Aggregate.names) : last ++ x.2 ≠ name := by
  intro htext
  have hchars : last.toList ++ x.2.toList = name.toList := by
    rw [← String.toList_append, htext]
  have hending := aggregate_endings name hname s s.mem_all x hs ⟨_, hchars⟩
  rw [← hchars] at hending
  simp only [List.length_append, Nat.add_sub_cancel, List.take_left] at hending
  exact hending hlast

/-- No file of an entity is where a file about all entities is. -/
theorem components_ne_aggregate (hs : s.tail? = some x)
    (hdirectory : directory.toList.getLast? = some 's') {name : String}
    (hname : name ∈ Aggregate.names) :
    (base.join (file directory x)).components ≠ (other.join ⟨name⟩).components := by
  intro h
  obtain ⟨last, hplural, hfile⟩ := getLast?_trail_file hs hdirectory
  have hlast := congrArg List.getLast? h
  rw [Path.getLast?_components_join hfile, getLast?_components_aggregate hname] at hlast
  exact append_ending_ne_aggregate hs hplural hname (Path.Component.name.inj (Option.some.inj hlast))

end Surface

namespace Artifact

/-- No path is both left alone and overwritten. -/
def Separate (artifacts : List Artifact) : Prop :=
  ∀ a ∈ artifacts, ∀ b ∈ artifacts, a.policy = .skipIfExists → b.policy = .overwrite →
    a.path.isSame b.path = false

end Artifact

/-- No file that is edited by hand has the path of a copy for reference of the same surface. -/
def Layout.Apart (layout : Layout) (directories : List String) : Prop :=
  ∀ d ∈ directories, ∀ e ∈ directories, ∀ surface tail, Surface.tail? surface = some tail →
    (layout.resources.join (Surface.file d tail)).isSame
      (layout.reference.join (Surface.file e tail)) = false

section Separate

variable {schema : Schema} {policy : OwnerPolicy} {layout : Layout} {artifacts : List Artifact}

/-- A file that is edited by hand is where a copy for reference is only if both are of one surface. -/
theorem surface_of_isSame {d e : String} {s t : Surface} {x y : List String × String}
    (hs : s.tail? = some x) (ht : t.tail? = some y) (hd : d.toList.getLast? = some 's')
    (he : e.toList.getLast? = some 's')
    (h : (layout.resources.join (Surface.file d x)).isSame
      (layout.reference.join (Surface.file e y)) = true) : s = t ∧ x = y := by
  rw [Path.isSame, beq_iff_eq] at h
  obtain rfl := Surface.surface_of_components hs ht hd he h
  exact ⟨rfl, Option.some.inj (hs.symm.trans ht)⟩

theorem separate_iff_apart (h : schema.generate policy layout = .ok artifacts) :
    Artifact.Separate artifacts ↔ layout.Apart schema.directories := by
  constructor
  · intro hseparate d hd e he surface tail htail
    have hfirst : (layout.resources.join (Surface.file d tail), WritePolicy.skipIfExists) ∈
        layout.placements schema.directories :=
      mem_placements.2 (Or.inl ⟨d, hd, surface, tail, htail, Or.inl ⟨rfl, rfl⟩⟩)
    have hsecond : (layout.reference.join (Surface.file e tail), WritePolicy.overwrite) ∈
        layout.placements schema.directories :=
      mem_placements.2 (Or.inl ⟨e, he, surface, tail, htail, Or.inr ⟨rfl, rfl⟩⟩)
    obtain ⟨a, ha, hpath, hpolicy⟩ := (exists_artifact_iff h).2 hfirst
    obtain ⟨b, hb, hpath', hpolicy'⟩ := (exists_artifact_iff h).2 hsecond
    rw [← hpath, ← hpath']
    exact hseparate a ha b hb hpolicy hpolicy'
  · intro hapart a ha b hb hskip hoverwrite
    have hfirst := (exists_artifact_iff h).1 ⟨a, ha, rfl, hskip⟩
    have hsecond := (exists_artifact_iff h).1 ⟨b, hb, rfl, hoverwrite⟩
    rw [mem_placements] at hfirst hsecond
    obtain ⟨d, hd, s, x, hs, hpath⟩ : ∃ d ∈ schema.directories, ∃ s x,
        Surface.tail? s = some x ∧ a.path = layout.resources.join (Surface.file d x) := by
      simpa using hfirst
    have hplural := Schema.getLast?_of_mem_directories hd
    rw [hpath]
    rcases hsecond with ⟨e, he, t, y, ht, hcopy⟩ | ⟨name, hname, hcopy, -⟩
    · have hpath' : b.path = layout.reference.join (Surface.file e y) := by simpa using hcopy
      rw [hpath', ← Bool.not_eq_true]
      intro hsame
      obtain ⟨rfl, rfl⟩ :=
        surface_of_isSame hs ht hplural (Schema.getLast?_of_mem_directories he) hsame
      rw [hapart d hd e he s x hs] at hsame
      cases hsame
    · rw [hcopy, Path.isSame, beq_eq_false_iff_ne]
      exact Surface.components_ne_aggregate hs hplural hname

/-- Where directories are single names, a file says where it lies by what it is put under and how many
names follow. -/
theorem apart_iff_of_names {directories : List String}
    (hnames : ∀ d ∈ directories, '/' ∉ d.toList ∧ d.toList.getLast? = some 's') :
    layout.Apart directories ↔ (layout.resources.isSame layout.reference = true →
      directories = []) := by
  have hcomponents (base : Path) {d : String} (hd : d ∈ directories) {surface : Surface}
      {tail : List String × String} (htail : surface.tail? = some tail) :=
    components_join_file base htail (hnames d hd).1 (hnames d hd).2
  constructor
  · intro hapart hsame
    by_contra hne
    obtain ⟨d, rest, hdirectories⟩ := List.exists_cons_of_ne_nil hne
    have hd : d ∈ directories := by rw [hdirectories]; exact List.mem_cons_self
    have htail : Surface.tail? .controller = some ([], ".controller.ts") := rfl
    have hdifferent := hapart d hd d hd .controller _ htail
    rw [Path.isSame, beq_iff_eq] at hsame
    rw [Path.isSame, hcomponents _ hd htail, hcomponents _ hd htail, hsame, beq_self_eq_true]
      at hdifferent
    cases hdifferent
  · intro himplies d hd e he surface tail htail
    rw [Path.isSame, beq_eq_false_iff_ne, hcomponents _ hd htail, hcomponents _ he htail]
    intro heq
    have hlength : ((d :: tail.1 ++ [d ++ tail.2]).map Path.Component.name).length =
        ((e :: tail.1 ++ [e ++ tail.2]).map Path.Component.name).length := by simp
    have hsame := (List.append_inj' heq hlength).1
    have hnil := himplies (by rw [Path.isSame, hsame, beq_self_eq_true])
    rw [hnil] at hd
    cases hd

/-- Every schema that resolves is generated from, under every layout. No path is both left alone and
overwritten exactly when no file has the path of a copy of the same surface; where no name holds a slash,
exactly when the files edited by hand and the copies go to different directories, or there are none. -/
theorem separate_iff {resolved : List ResolvedEntity} (h : schema.resolve = .ok resolved)
    (policy : OwnerPolicy) (layout : Layout) :
    ∃ artifacts, schema.generate policy layout = .ok artifacts ∧
      (Artifact.Separate artifacts ↔ layout.Apart schema.directories) ∧
      ((∀ entity ∈ schema.entities, '/' ∉ entity.name.toList) →
        (Artifact.Separate artifacts ↔
          (layout.resources.isSame layout.reference = true → schema.entities = []))) := by
  obtain ⟨artifacts, hgenerate⟩ := Schema.generate_of_resolve h policy layout
  refine ⟨artifacts, hgenerate, separate_iff_apart hgenerate, fun hnames => ?_⟩
  rw [separate_iff_apart hgenerate, apart_iff_of_names fun d hd =>
    ⟨Schema.not_slash_mem_directory hnames hd, Schema.getLast?_of_mem_directories hd⟩,
    Schema.directories, List.map_eq_nil_iff]

theorem separate_for_people :
    ∃ artifacts, people.generate .standard .standard = .ok artifacts ∧
      Artifact.Separate artifacts := by
  obtain ⟨artifacts, hgenerate, -, hiff⟩ := separate_iff people_resolve .standard .standard
  have hnames : ∀ entity ∈ people.entities, '/' ∉ entity.name.toList := by decide
  refine ⟨artifacts, hgenerate, (hiff hnames).2 fun hsame => ?_⟩
  exact absurd hsame (by decide)

/-- Files edited by hand and their copies in one directory. -/
def Layout.shared : Layout := ⟨⟨"src"⟩, ⟨"src"⟩, ⟨"generated"⟩⟩

theorem not_separate_for_shared :
    ∃ artifacts, people.generate .standard .shared = .ok artifacts ∧
      ¬Artifact.Separate artifacts := by
  obtain ⟨artifacts, hgenerate⟩ := Schema.generate_of_resolve people_resolve .standard .shared
  refine ⟨artifacts, hgenerate, fun hseparate => ?_⟩
  have hdirectories : ∀ d ∈ people.directories, '/' ∉ d.toList ∧ d.toList.getLast? = some 's' := by
    decide
  have hapart := (separate_iff_apart hgenerate).1 hseparate
  have hnone := (apart_iff_of_names hdirectories).1 hapart (by decide)
  cases hnone

end Separate

/-- The components of both copies of every file in a directory. -/
def Layout.copies (layout : Layout) (directory : String) : List (List Path.Component) :=
  (Surface.all.filterMap (Surface.file? directory)).flatMap fun file =>
    [(layout.resources.join file).components, (layout.reference.join file).components]

theorem components_of_generate {schema : Schema} {policy : OwnerPolicy} {layout : Layout}
    {artifacts : List Artifact} (h : schema.generate policy layout = .ok artifacts) :
    artifacts.map (fun a => a.path.components) =
      schema.directories.flatMap layout.copies ++
        Aggregate.names.map fun name => (layout.generated.join ⟨name⟩).components := by
  have hmap : artifacts.map (fun a => a.path.components) =
      (artifacts.map Artifact.placement).map fun placement => placement.1.components := by
    rw [List.map_map]
    rfl
  rw [hmap, placements_of_generate h, Layout.placements, List.map_append, List.map_flatMap,
    List.map_map]
  refine congrArg₂ _ (List.flatMap_congr fun directory _ => ?_) rfl
  rw [List.map_flatMap]
  rfl

namespace Layout

theorem mem_copies {layout : Layout} {directory : String} {components : List Path.Component} :
    components ∈ layout.copies directory ↔ ∃ surface tail, Surface.tail? surface = some tail ∧
      (components = (layout.resources.join (Surface.file directory tail)).components ∨
        components = (layout.reference.join (Surface.file directory tail)).components) := by
  simp only [copies, List.mem_flatMap, List.mem_filterMap, Surface.file?_eq,
    Option.map_eq_some_iff, List.mem_cons, List.not_mem_nil, or_false]
  constructor
  · rintro ⟨file, ⟨surface, -, tail, htail, rfl⟩, h⟩
    exact ⟨surface, tail, htail, h⟩
  · rintro ⟨surface, tail, htail, h⟩
    exact ⟨_, ⟨surface, surface.mem_all, tail, htail, rfl⟩, h⟩

end Layout

namespace Surface

theorem head?_file {directory : String} {tail : List String × String}
    (hdirectory : directory.toList.getLast? = some 's') :
    (file directory tail).text.toList.head? = directory.toList.head? := by
  have hne : directory.toList ≠ [] := by
    intro h
    rw [h] at hdirectory
    cases hdirectory
  obtain ⟨c, cs, hcs⟩ := List.exists_cons_of_ne_nil hne
  have hrest : (tail.1 ++ [directory ++ tail.2]).map String.toList ≠ [] := by simp
  rw [file, Path.ofParts, String.toList_ofList, List.cons_append, List.map_cons,
    joinSlash_cons hrest, hcs]
  rfl

theorem isAbsolute_file {directory : String} {tail : List String × String}
    (hdirectory : directory.toList.getLast? = some 's') :
    (file directory tail).isAbsolute = true ↔ directory.toList.head? = some '/' := by
  rw [Path.isAbsolute, head?_file hdirectory, beq_iff_eq]

end Surface

section Standard

variable {directory other : String} {surface : Surface} {tail : List String × String}

/-- With the standard layout the first place tells files edited by hand from copies for reference. -/
theorem components_standard (hdirectory : directory.toList.getLast? = some 's')
    (hrelative : directory.toList.head? ≠ some '/') (tail : List String × String) :
    (Layout.standard.resources.join (Surface.file directory tail)).components =
        .name "resources" :: (Surface.file directory tail).trail ∧
      (Layout.standard.reference.join (Surface.file directory tail)).components =
        .name "generated" :: .name "resources" :: (Surface.file directory tail).trail := by
  have hfile : (Surface.file directory tail).isAbsolute = false := by
    rw [← Bool.not_eq_true, Surface.isAbsolute_file hdirectory]
    exact hrelative
  rw [Path.components_join hfile (Or.inl (by decide)),
    Path.components_join hfile (Or.inl (by decide))]
  exact ⟨rfl, rfl⟩

theorem nodup_aggregates :
    (Aggregate.names.map fun name => (Layout.standard.generated.join ⟨name⟩).components).Nodup := by
  have hrelative : ∀ name ∈ Aggregate.names, (Path.mk name).isAbsolute = false := by decide
  have hcomponents : ∀ name ∈ Aggregate.names,
      (Layout.standard.generated.join ⟨name⟩).components =
        Layout.standard.generated.components ++ [.name name] := by
    intro name hname
    rw [Path.components_join (hrelative name hname) (Or.inl (by decide)), trail_aggregate name hname]
  have hnames : Aggregate.names.Nodup := by decide
  rw [List.map_congr_left hcomponents]
  refine hnames.map fun name other h => ?_
  simpa using h

theorem nodup_copies_iff (hdirectory : directory.toList.getLast? = some 's') :
    (Layout.standard.copies directory).Nodup ↔ directory.toList.head? ≠ some '/' := by
  constructor
  · intro hnodup habsolute
    have hfile (tail : List String × String) : (Surface.file directory tail).isAbsolute = true :=
      (Surface.isAbsolute_file hdirectory).2 habsolute
    have hpair := (List.nodup_flatMap.1 hnodup).1 (Surface.file directory ([], ".controller.ts"))
      (List.mem_filterMap.2 ⟨.controller, Surface.mem_all _, Surface.file?_eq _ _⟩)
    simp [Path.join, hfile] at hpair
  · intro hrelative
    rw [Layout.copies, List.nodup_flatMap]
    constructor
    · intro file hmem
      obtain ⟨surface, -, hfile⟩ := List.mem_filterMap.1 hmem
      rw [Surface.file?_eq, Option.map_eq_some_iff] at hfile
      obtain ⟨tail, -, rfl⟩ := hfile
      obtain ⟨hresources, hreference⟩ := components_standard hdirectory hrelative tail
      simp [hresources, hreference]
    · rw [List.pairwise_filterMap]
      refine Surface.nodup_all.imp fun {s t} hne file hfile file' hfile' => ?_
      rw [Surface.file?_eq, Option.map_eq_some_iff] at hfile hfile'
      obtain ⟨x, hs, rfl⟩ := hfile
      obtain ⟨y, ht, rfl⟩ := hfile'
      intro components hleft hright
      simp only [List.mem_cons, List.not_mem_nil, or_false] at hleft hright
      -- whichever copies they are, files of two surfaces differ
      rcases hleft with rfl | rfl <;> rcases hright with h | h <;>
        exact hne (Surface.surface_of_components hs ht hdirectory hdirectory h)

theorem disjoint_copies_iff (hdirectory : directory.toList.getLast? = some 's')
    (hother : other.toList.getLast? = some 's') (hrelative : directory.toList.head? ≠ some '/')
    (hrelative' : other.toList.head? ≠ some '/') :
    (Layout.standard.copies directory).Disjoint (Layout.standard.copies other) ↔
      (Path.mk directory).trail ≠ (Path.mk other).trail := by
  constructor
  · intro hdisjoint hsame
    have htail : Surface.tail? .controller = some ([], ".controller.ts") := rfl
    obtain ⟨hresources, -⟩ := components_standard hdirectory hrelative ([], ".controller.ts")
    obtain ⟨hresources', -⟩ := components_standard hother hrelative' ([], ".controller.ts")
    have htrail := (Surface.trail_file_inj hdirectory hother htail htail).2 ⟨rfl, hsame⟩
    refine hdisjoint (Layout.mem_copies.2 ⟨_, _, htail, Or.inl rfl⟩)
      (Layout.mem_copies.2 ⟨_, _, htail, Or.inl ?_⟩)
    rw [hresources, hresources', htrail]
  · intro hne components hleft hright
    obtain ⟨s, x, hs, hleft⟩ := Layout.mem_copies.1 hleft
    obtain ⟨t, y, ht, hright⟩ := Layout.mem_copies.1 hright
    obtain ⟨hresources, hreference⟩ := components_standard hdirectory hrelative x
    obtain ⟨hresources', hreference'⟩ := components_standard hother hrelative' y
    rw [hresources, hreference] at hleft
    rw [hresources', hreference'] at hright
    have htrail : (Surface.file directory x).trail = (Surface.file other y).trail := by
      rcases hleft with rfl | rfl <;> rcases hright with h | h <;> simp_all
    exact hne ((Surface.trail_file_inj hdirectory hother hs ht).1 htrail).2

end Standard

theorem nodup_copies_of_directories {directories : List String}
    (hplural : ∀ d ∈ directories, d.toList.getLast? = some 's') :
    (directories.flatMap Layout.standard.copies).Nodup ↔
      (∀ d ∈ directories, d.toList.head? ≠ some '/') ∧
        (directories.map fun d => (Path.mk d).trail).Nodup := by
  rw [List.nodup_flatMap]
  have hsingle : (∀ d ∈ directories, (Layout.standard.copies d).Nodup) ↔
      ∀ d ∈ directories, d.toList.head? ≠ some '/' :=
    forall₂_congr fun d hd => nodup_copies_iff (hplural d hd)
  rw [hsingle]
  refine and_congr_right fun hrelative => ?_
  rw [List.Nodup, List.pairwise_map]
  refine List.Pairwise.iff_of_mem fun {d e} hd he => ?_
  exact disjoint_copies_iff (hplural d hd) (hplural e he) (hrelative d hd) (hrelative e he)

theorem nodup_components_iff {schema : Schema} {policy : OwnerPolicy} {artifacts : List Artifact}
    (h : schema.generate policy .standard = .ok artifacts) :
    (artifacts.map fun a => a.path.components).Nodup ↔
      (∀ entity ∈ schema.entities, entity.name.toList.head? ≠ some '/') ∧
        (schema.directories.map fun d => (Path.mk d).trail).Nodup := by
  have hplural (d : String) (hd : d ∈ schema.directories) := Schema.getLast?_of_mem_directories hd
  have hheads : (∀ d ∈ schema.directories, d.toList.head? ≠ some '/') ↔
      ∀ entity ∈ schema.entities, entity.name.toList.head? ≠ some '/' := by
    simp only [Schema.directories, List.forall_mem_map, ne_eq, Names.head?_kebabPlural]
  have hdisjoint : (schema.directories.flatMap Layout.standard.copies).Disjoint
      (Aggregate.names.map fun name => (Layout.standard.generated.join ⟨name⟩).components) := by
    intro components hleft hright
    obtain ⟨d, hd, hcopy⟩ := List.mem_flatMap.1 hleft
    obtain ⟨surface, tail, htail, hcopy⟩ := Layout.mem_copies.1 hcopy
    obtain ⟨name, hname, rfl⟩ := List.mem_map.1 hright
    rcases hcopy with hcopy | hcopy <;>
      exact Surface.components_ne_aggregate htail (hplural d hd) hname hcopy.symm
  rw [components_of_generate h, List.nodup_append', nodup_copies_of_directories hplural, hheads]
  exact ⟨fun hall => hall.1, fun hall => ⟨hall, nodup_aggregates, hdisjoint⟩⟩

/-- A directory that is a single name is told by it. -/
theorem nodup_trails_iff {directories : List String}
    (hnames : ∀ d ∈ directories, '/' ∉ d.toList ∧ d.toList.getLast? = some 's') :
    (directories.map fun d => (Path.mk d).trail).Nodup ↔ directories.Nodup := by
  have htrail (d : String) (hd : d ∈ directories) : (Path.mk d).trail = [.name d] := by
    obtain ⟨hslash, hlast⟩ := hnames d hd
    have hname : IsName d := isName_of_getLast? hlast (by decide)
    simp [Path.trail, Path.parts_of_not_mem hslash, Path.componentOf?_of_isName hname]
  have hinjective : Function.Injective fun d : String => [Path.Component.name d] := by
    intro d e hde
    simpa using hde
  rw [List.map_congr_left htrail, List.nodup_map_iff hinjective]

/-- Every schema that resolves is generated from. With the standard layout all paths differ exactly when no
name starts with a slash and no two entities share a directory; where no name holds a slash, exactly
when the directories have different names. -/
theorem components_nodup_iff {schema : Schema} {resolved : List ResolvedEntity}
    (h : schema.resolve = .ok resolved) (policy : OwnerPolicy) :
    ∃ artifacts, schema.generate policy .standard = .ok artifacts ∧
      ((artifacts.map fun a => a.path.components).Nodup ↔
        (∀ entity ∈ schema.entities, entity.name.toList.head? ≠ some '/') ∧
          (schema.directories.map fun d => (Path.mk d).trail).Nodup) ∧
      ((∀ entity ∈ schema.entities, '/' ∉ entity.name.toList) →
        ((artifacts.map fun a => a.path.components).Nodup ↔ schema.directories.Nodup)) := by
  obtain ⟨artifacts, hgenerate⟩ := Schema.generate_of_resolve h policy .standard
  refine ⟨artifacts, hgenerate, nodup_components_iff hgenerate, fun hnames => ?_⟩
  have hstart : ∀ entity ∈ schema.entities, entity.name.toList.head? ≠ some '/' :=
    fun entity hentity hhead => hnames entity hentity (List.mem_of_head? hhead)
  have hdirectories (d : String) (hd : d ∈ schema.directories) :=
    And.intro (Schema.not_slash_mem_directory hnames hd) (Schema.getLast?_of_mem_directories hd)
  rw [nodup_components_iff hgenerate, nodup_trails_iff hdirectories]
  exact and_iff_right hstart

theorem components_nodup_for_people :
    ∃ artifacts, people.generate .standard .standard = .ok artifacts ∧
      (artifacts.map fun a => a.path.components).Nodup := by
  obtain ⟨artifacts, hgenerate, -, hiff⟩ := components_nodup_iff people_resolve .standard
  have hnames : ∀ entity ∈ people.entities, '/' ∉ entity.name.toList := by decide
  exact ⟨artifacts, hgenerate, (hiff hnames).2 (by decide)⟩

/-- Two entities of different names, whose plurals are the same. -/
def categories : Schema where
  entities := [
    { name := "Category", tableName := "category", fields := [], indexes := [], relations := [] },
    { name := "Categorie", tableName := "categorie", fields := [], indexes := [], relations := [] }]
  api := .standard

theorem not_components_nodup_for_categories :
    ∃ artifacts, categories.generate .standard .standard = .ok artifacts ∧
      ¬(artifacts.map fun a => a.path.components).Nodup := by
  have hresolve : categories.resolve = .ok (categories.entities.map (⟨·, []⟩)) := by decide
  obtain ⟨artifacts, hgenerate⟩ := Schema.generate_of_resolve hresolve .standard .standard
  refine ⟨artifacts, hgenerate, fun hnodup => ?_⟩
  obtain ⟨-, htrails⟩ := (nodup_components_iff hgenerate).1 hnodup
  have hsame : categories.directories = ["categories", "categories"] := by decide
  rw [hsame] at htrails
  simp at htrails

end EntityForge
