import EntityForge.Proofs.Effect

/-!
Requests that a disk without links does not refuse.

A path passes where there is a directory at every name of it, and it reaches a place where there is one at every
name but the last. If such a path is not too long, walks along it are not stopped, and what is asked for is
done unless something stands at its place that is in the way. Main statements: `Passes.answer_probe`,
`Reaches.answer_makeDirectory`, `Reaches.answer_write`, `Reaches.answer_link` and `Reaches.answer_rename`.
-/

namespace EntityForge

/-- A path that may be asked for: it is not too long, and does not hold the character that ends it. -/
structure Path.Sendable (path : Path) : Prop where
  short : path.text.utf8ByteSize ≤ Disk.pathLimit
  plain : '\x00' ∉ path.text.toList

/-- What a path lies in may be asked for if the path may. -/
theorem Path.Sendable.ancestor {path above : Path} (h : path.Sendable) (habove : above ∈ path.ancestors) :
    above.Sendable where
  short := (Path.bytes_of_mem_ancestors habove).trans h.short
  plain hmem := h.plain ((Path.text_of_mem_ancestors habove).subset hmem)

/-- A path under another one may be asked for if both together are short enough. -/
theorem Path.Sendable.join {base path : Path} (hrelative : path.isAbsolute = false)
    (hbase : '\x00' ∉ base.text.toList) (hpath : '\x00' ∉ path.text.toList)
    (hroom : base.text.utf8ByteSize + 1 + path.text.utf8ByteSize ≤ Disk.pathLimit) :
    (base.join path).Sendable := by
  obtain ⟨between, hbetween, htext⟩ := Path.exists_text_join base hrelative
  have hplain : ∀ between ∈ ["", "/"], '\x00' ∉ between.toList := by decide
  exact ⟨(Path.bytes_join_le base hrelative).trans hroom, by simp [htext, hbase, hpath, hplain between hbetween]⟩

namespace Disk

/-- A path that leads through directories all the way. -/
def Passes (disk : Disk) (path : Path) (location : Location) : Prop :=
  disk.tree.course (FileTree.startOf path disk.here) path.way = .ok (location, none)

/-- A path that ends in a name, in a directory that is there. -/
structure Reaches (disk : Disk) (path : Path) (location : Location) : Prop where
  sendable : path.Sendable
  ends : path.EndsInWay
  course : ∃ names name above, path.way = names ++ [name] ∧ IsName name ∧
    name.utf8ByteSize ≤ FileTree.nameLimit ∧ location = above ++ [name] ∧
    disk.tree.course (FileTree.startOf path disk.here) names = .ok (above, none)

variable {disk after : Disk}

theorem answer_of_sendable (request : Request) (h : ∀ path ∈ request.paths, path.Sendable) :
    disk.answer request = disk.serve request := by
  apply answer_of_not_nul
  rw [Request.hasNul, List.any_eq_false]
  intro path hpath
  simpa using (h path hpath).plain

variable (h : disk.tree.Linkless) {path new : Path} {location target : Location}

namespace Passes

include h

variable (hpasses : disk.Passes path location)

include hpasses

/-- Whoever gets through gets through again where the same directories are there, and more. -/
theorem later (hafter : after.tree.Linkless) (hhere : after.here = disk.here)
    (hdirectories : ∀ place, disk.tree.get? place = some .directory →
      after.tree.get? place = some .directory) : after.Passes path location := by
  rw [Passes, hhere]
  exact FileTree.course_later (fun place => by rw [h, hafter]) hdirectories hpasses

variable (hsend : path.Sendable) (hne : path.text ≠ "")

include hsend hne

theorem place_eq (follow : Bool) :
    ∃ named, disk.place follow path = .ok ⟨location, some .directory, named, path.endsInSlash⟩ := by
  rw [Passes, Path.way_eq_filter, FileTree.course_filter h] at hpasses
  obtain ⟨named, hstroll⟩ := FileTree.stroll_of_course hpasses follow path.endsInSlash
  exact ⟨named, (place_eq_ok h).2 ⟨hsend.short, hne, hstroll⟩⟩

theorem answer_probe : (disk.answer (.probe path)).1 = .ok true := by
  obtain ⟨named, hplace⟩ := hpasses.place_eq h hsend hne true
  rw [answer_of_sendable (.probe path) (List.forall_mem_singleton.2 hsend)]
  simp [serve, probe, entry, hplace, bind, Except.bind, pure, Except.pure]

theorem answer_makeDirectory : disk.answer (.makeDirectory path) = (.error .alreadyExists, disk) := by
  obtain ⟨named, hplace⟩ := hpasses.place_eq h hsend hne false
  rw [answer_of_sendable (.makeDirectory path) (List.forall_mem_singleton.2 hsend)]
  simp [serve, makeDirectory, vacancy, hplace, bind, Except.bind, update]

/-- Where a directory is there already, no refusal is any harm. -/
theorem run_settle (result : Except FileFault Unit) :
    ((Session.makeDirectories.settle path result).run disk).1 = .ok () := by
  cases result with
  | ok _ => rfl
  | error fault =>
    have hprobe := hpasses.answer_probe h hsend hne
    unfold Session.makeDirectories.settle Session.isDirectory
    rw [Delivery.run_then, Delivery.run_probe, hprobe]
    rfl

end Passes

/-- What is found to be a directory is passed through on the way to what lies in it. -/
theorem passes_of_entry (h : disk.tree.Linkless) (hentry : disk.entry path = .ok .directory) :
    disk.Passes path (disk.site path) := by
  obtain ⟨place, hplace, hdirectory⟩ := place_of_entry hentry
  obtain ⟨-, -, hstroll⟩ := (place_eq_ok h).1 hplace
  have hcourse := FileTree.course_of_stroll hstroll hdirectory
  rw [← FileTree.course_filter h, ← Path.way_eq_filter] at hcourse
  rw [← (place_of_named h hplace).1]
  exact hcourse

/-- A directory cannot be made where the one that it lies in is missing. -/
theorem answer_makeDirectory_of_missing (h : disk.tree.Linkless) (hsend : path.Sendable)
    (hends : path.EndsInWay) {names : List String} {name : String} (hway : path.way = names ++ [name])
    (hcourse : disk.tree.course (FileTree.startOf path disk.here) names = .error .notFound) :
    disk.answer (.makeDirectory path) = (.error .notFound, disk) := by
  obtain ⟨before, hsteps, hbefore⟩ := hends.steps_eq hway
  rw [← hbefore, FileTree.course_filter h] at hcourse
  have hne : path.text ≠ "" := Path.text_ne_empty_of_way hway
  have hplace : disk.place false path = .error .notFound := by
    unfold place FileTree.place FileTree.walk
    rw [if_neg (Nat.not_lt.2 hsend.short), if_neg (by simpa [String.isEmpty_iff] using hne), hsteps,
      FileTree.stroll_append (List.cons_ne_nil name []), hcourse]
  rw [answer_of_sendable (.makeDirectory path) (List.forall_mem_singleton.2 hsend)]
  simp [serve, makeDirectory, vacancy, hplace, bind, Except.bind, update]

namespace Reaches

variable (hpath : disk.Reaches path location)

include hpath

theorem location_ne_nil : location ≠ [] := by
  obtain ⟨names, name, above, -, -, -, rfl, -⟩ := hpath.course
  simp

theorem text_ne_empty : path.text ≠ "" := by
  obtain ⟨names, name, above, hway, -⟩ := hpath.course
  exact Path.text_ne_empty_of_way hway

/-- Where its place is a directory, the path leads through directories all the way. -/
theorem passes (hdirectory : disk.tree.get? location = some .directory) : disk.Passes path location := by
  obtain ⟨names, name, above, hway, hname, hshort, rfl, hcourse⟩ := hpath.course
  rw [Passes, hway, FileTree.course_append, hcourse]
  simp only
  rw [FileTree.course_name hname.ne_here hname.ne_up, if_neg (Nat.not_lt.2 hshort), hdirectory]
  rfl

include h

theorem place_eq (follow : Bool) :
    disk.place follow path = .ok ⟨location, disk.tree.get? location, true, path.endsInSlash⟩ := by
  obtain ⟨names, name, above, hway, hname, hshort, rfl, hcourse⟩ := hpath.course
  obtain ⟨before, hsteps, hbefore⟩ := hpath.ends.steps_eq hway
  rw [← hbefore, FileTree.course_filter h] at hcourse
  refine (place_eq_ok h).2 ⟨hpath.sendable.short, hpath.text_ne_empty, ?_⟩
  rw [hsteps, FileTree.stroll_append (List.cons_ne_nil name []), hcourse]
  simp only
  rw [FileTree.stroll_last hname (h _), if_neg (Nat.not_lt.2 hshort)]

theorem later (hafter : after.tree.Linkless) (hhere : after.here = disk.here)
    (hdirectories : ∀ place, disk.tree.get? place = some .directory →
      after.tree.get? place = some .directory) : after.Reaches path location := by
  obtain ⟨names, name, above, hway, hname, hshort, rfl, hcourse⟩ := hpath.course
  refine ⟨hpath.sendable, hpath.ends, names, name, above, hway, hname, hshort, rfl, ?_⟩
  rw [hhere]
  exact FileTree.course_later (fun place => by rw [h, hafter]) hdirectories hcourse

/-- A place stays in reach when something new is put where there was no directory. -/
theorem turned {place : Location} {occupant? : Option Entry} (hturns : Turns place occupant? disk after)
    (hfree : disk.tree.get? place ≠ some .directory) (hentry : occupant?.bind Entry.target? = none) :
    after.Reaches path location :=
  hpath.later h (hturns.linkless h hentry) hturns.here (hturns.directory hfree)

/-- A directory in one that is there is made, or is there already. -/
theorem answer_makeDirectory
    (hfree : disk.tree.get? location = none ∨ disk.tree.get? location = some .directory) :
    let made := disk.answer (.makeDirectory path)
    (made.1 = .ok () ∨ made.1 = .error .alreadyExists) ∧ made.2.Passes path location ∧
      made.2.tree.Linkless := by
  intro made
  rcases hfree with hnone | hdirectory
  · have hplace := hpath.place_eq h false
    rw [hnone] at hplace
    have hanswer : made = (.ok (), { disk with tree := disk.tree.set location .directory }) := by
      have hserve : made = disk.serve (.makeDirectory path) :=
        answer_of_sendable _ (List.forall_mem_singleton.2 hpath.sendable)
      rw [hserve]
      simp [serve, makeDirectory, vacancy, hplace, bind, Except.bind, pure, Except.pure, update]
    have hturns := turns_set hpath.location_ne_nil disk .directory
    rw [hanswer]
    exact ⟨Or.inl rfl, (hpath.turned h hturns (by simp [hnone]) rfl).passes hturns.self,
      hturns.linkless h rfl⟩
  · have hpasses := hpath.passes hdirectory
    have hanswer : made = _ := hpasses.answer_makeDirectory h hpath.sendable hpath.text_ne_empty
    rw [hanswer]
    exact ⟨Or.inr rfl, hpasses, h⟩

/-- A file is not found where it is asked for with a slash at the end. -/
theorem not_exists_of_slash (hslash : path.endsInSlash = true) {contents : String}
    (hfile : disk.tree.get? location = some (.file contents)) : ((Session.exists? path).run disk).1 = false := by
  have hplace := hpath.place_eq h true
  rw [Delivery.run_exists?_fst, answer_of_sendable (.probe path) (List.forall_mem_singleton.2 hpath.sendable)]
  simp [serve, probe, entry, hplace, hfile, hslash, bind, Except.bind]

variable (hopen : path.endsInSlash = false)

include hopen

theorem exists?_eq (hfree : disk.tree.get? location ≠ some .directory) :
    ((Session.exists? path).run disk).1 = (disk.tree.get? location).isSome := by
  have hplace := hpath.place_eq h true
  rw [Delivery.run_exists?_fst, answer_of_sendable (.probe path) (List.forall_mem_singleton.2 hpath.sendable)]
  cases hentry : disk.tree.get? location with
  | none => simp [serve, probe, entry, hplace, hentry, bind, Except.bind]
  | some entry =>
    obtain rfl | ⟨contents, rfl⟩ := FileTree.entry_of_linkless h hentry
    · exact absurd hentry hfree
    · simp [serve, probe, Disk.entry, hplace, hentry, hopen, bind, Except.bind, pure, Except.pure]

theorem answer_write (hfree : disk.tree.get? location ≠ some .directory) (contents : String) :
    (disk.answer (.write path contents)).1 = .ok () ∧
      Turns location (some (.file contents)) disk (disk.answer (.write path contents)).2 := by
  have hanswer : disk.answer (.write path contents) =
      (.ok (), { disk with tree := disk.tree.set location (.file contents) }) := by
    rw [answer_of_sendable (.write path contents) (List.forall_mem_singleton.2 hpath.sendable)]
    simp [serve, write, hpath.place_eq h, hopen, bind, Except.bind, hfree, update]
  rw [hanswer]
  exact ⟨rfl, turns_set hpath.location_ne_nil disk _⟩

theorem answer_remove {contents : String} (hfile : disk.tree.get? location = some (.file contents)) :
    Turns location none disk (disk.answer (.remove path)).2 := by
  have hanswer : disk.answer (.remove path) = (.ok (), { disk with tree := disk.tree.erase location }) := by
    rw [answer_of_sendable (.remove path) (List.forall_mem_singleton.2 hpath.sendable)]
    simp [serve, remove, hpath.place_eq h, hopen, hfile, bind, Except.bind, update]
  rw [hanswer]
  exact turns_erase hpath.location_ne_nil disk

section Two

variable (hnew : disk.Reaches new target) (hnewOpen : new.endsInSlash = false) {contents : String}
  (hfile : disk.tree.get? location = some (.file contents))

include hnew hfile

theorem answer_link_of_taken (htaken : disk.tree.get? target ≠ none) :
    disk.answer (.link path new) = (.error .alreadyExists, disk) := by
  have hplace := hpath.place_eq h false
  have hplaceNew := hnew.place_eq h false
  obtain ⟨entry, hentry⟩ := Option.ne_none_iff_exists'.1 htaken
  rw [answer_of_sendable (.link path new) (by simp [Request.paths, hpath.sendable, hnew.sendable])]
  simp [serve, link, vacancy, hopen, hplace, hplaceNew, hfile, hentry, bind, Except.bind, update]

include hnewOpen

theorem answer_link (hvacant : disk.tree.get? target = none) :
    (disk.answer (.link path new)).1 = .ok () := by
  have hplace := hpath.place_eq h false
  have hplaceNew := hnew.place_eq h false
  rw [answer_of_sendable (.link path new) (by simp [Request.paths, hpath.sendable, hnew.sendable])]
  simp [serve, link, vacancy, hopen, hplace, hnewOpen, hplaceNew, hfile, hvacant, bind, Except.bind, update]

theorem answer_rename (hfree : disk.tree.get? target ≠ some .directory) :
    (disk.answer (.rename path new)).1 = .ok () := by
  have hplace := hpath.place_eq h false
  have hplaceNew := hnew.place_eq h false
  rw [answer_of_sendable (.rename path new) (by simp [Request.paths, hpath.sendable, hnew.sendable])]
  simp [serve, rename, hopen, hplace, hnewOpen, hplaceNew, hfile, hfree, bind, Except.bind, update]

end Two

end Reaches

end Disk

end EntityForge
