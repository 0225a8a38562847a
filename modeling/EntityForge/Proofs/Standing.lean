import EntityForge.Proofs.Frame
import EntityForge.Proofs.Success

/-!
What a reply tells of the directories on the way.

On a disk without links a request is granted only where its path goes through directories up to the last name, and
where that is so the next request can come as far. So too for the directories that a file is to lie in: once they
have been made, they are there to be passed. Main statements: `reaches_of_place`, `reaches_of_exists`,
`houses_of_makeParent` and `Houses.makeParent_eq`.
-/

namespace EntityForge

theorem Request.plain_of_hasNul {request : Request} (h : request.hasNul = false) :
    ∀ path ∈ request.paths, '\x00' ∉ path.text.toList := by
  rw [Request.hasNul, List.any_eq_false] at h
  intro path hpath
  simpa using h path hpath

namespace Disk

section Walked

variable {disk : Disk} (h : disk.tree.Linkless) {path new : Path} {contents : String}

include h

/-- A path on which a walk has come to a name is one that such a place is reached by. -/
theorem reaches_of_place (hpath : path.EndsInName) (hplain : '\x00' ∉ path.text.toList) {follow : Bool}
    {place : Place} (hplace : disk.place follow path = .ok place) (hnamed : place.isNamed = true) :
    disk.Reaches path (disk.site path) := by
  obtain ⟨names, name, hway, hup⟩ := hpath
  obtain ⟨hhere, before, rest, hsteps, hidle, rfl⟩ := Path.steps_of_way hway
  obtain ⟨hshort, -, hstroll⟩ := (place_eq_ok h).1 hplace
  rw [hsteps, FileTree.stroll_append (List.cons_ne_nil name rest)] at hstroll
  cases hcourse : disk.tree.course (FileTree.startOf path disk.here) before with
  | error fault => simp [hcourse] at hstroll
  | ok result =>
    obtain rfl := FileTree.course_of_linkless h hcourse
    simp only [hcourse] at hstroll
    obtain ⟨hlength, ⟨rfl, rfl⟩ | ⟨-, -, rfl⟩⟩ := (FileTree.stroll_ending h hhere hup hidle).1 hstroll
    · refine ⟨⟨hshort, hplain⟩, ?_, _, name, _, hway, ?_, hlength, site_of_way h hway hup, ?_⟩
      · intro names last hlast
        obtain ⟨-, rfl⟩ := List.append_singleton_inj.1 (hway.symm.trans hlast)
        exact ⟨before, hsteps⟩
      · exact Path.isName_of_mem_way (show name ∈ path.way by simp [hway]) hup
      · rw [FileTree.course_filter h, hcourse, FileTree.reach_filter]
    · cases hnamed

theorem reaches_of_write (hpath : path.EndsInName) (hreply : (disk.answer (.write path contents)).1 = .ok ()) :
    disk.Reaches path (disk.site path) := by
  obtain ⟨-, hfree, hnul, follow, place, hplace⟩ := turns_of_write h hpath hreply
  refine reaches_of_place h hpath (Request.plain_of_hasNul hnul path (by simp [Request.paths])) hplace ?_
  obtain ⟨names, name, hway, hup⟩ := hpath
  obtain ⟨-, -, -, hnamed⟩ := place_of_way h hway hup hplace
  exact hnamed.resolve_right hfree

/-- A name that has been given to a file. -/
theorem reaches_of_link (hnew : new.EndsInName) (hreply : (disk.answer (.link path new)).1 = .ok ()) :
    disk.Reaches new (disk.site new) ∧ new.endsInSlash = false := by
  obtain ⟨hnul, hserve⟩ := answer_of_ok hreply
  rw [hserve] at hreply
  obtain ⟨tree, htree, -⟩ := update_eq_ok hreply
  obtain ⟨old, -, hset⟩ := bind_eq_ok.1 htree
  split at hset
  · cases hset
  · split at hset
    · cases hset
    · obtain ⟨location, hvacant, -⟩ := bind_eq_ok.1 hset
      obtain ⟨place, hplace, -, hnamed, hopen⟩ := place_of_vacancy hvacant
      have hplain := Request.plain_of_hasNul hnul new (by simp [Request.paths])
      refine ⟨reaches_of_place h hnew hplain hplace hnamed, ?_⟩
      obtain ⟨names, name, hway, hup⟩ := hnew
      obtain ⟨-, -, hslash, -⟩ := place_of_way h hway hup hplace
      rw [← hslash]
      simpa using hopen

/-- A name that is taken by something other than a directory. -/
theorem reaches_of_taken (hpath : path.EndsInName) (hnew : new.EndsInName)
    (hfile : disk.tree.get? (disk.site path) = some (.file contents))
    (hreply : (disk.answer (.link path new)).1 = .error .alreadyExists)
    (hfree : disk.tree.get? (disk.site new) ≠ some .directory) : disk.Reaches new (disk.site new) := by
  obtain ⟨-, hnul, -, place, hplace⟩ := taken_of_link h hpath hnew hfile hreply
  refine reaches_of_place h hnew (Request.plain_of_hasNul hnul new (by simp [Request.paths])) hplace ?_
  obtain ⟨names, name, hway, hup⟩ := hnew
  obtain ⟨-, -, -, hnamed⟩ := place_of_way h hway hup hplace
  exact hnamed.resolve_right hfree

theorem reaches_of_rename (hnew : new.EndsInName) (hreply : (disk.answer (.rename path new)).1 = .ok ()) :
    disk.Reaches new (disk.site new) ∧ new.endsInSlash = false := by
  obtain ⟨hnul, hserve⟩ := answer_of_ok hreply
  rw [hserve] at hreply
  obtain ⟨tree, htree, -⟩ := update_eq_ok hreply
  obtain ⟨old, -, hrest⟩ := bind_eq_ok.1 htree
  obtain ⟨place, hplace, hset⟩ := bind_eq_ok.1 hrest
  obtain ⟨names, name, hway, hup⟩ := hnew
  obtain ⟨-, -, hslash, -⟩ := place_of_way h hway hup hplace
  split at hset
  · cases hset
  · next hnamed =>
    simp only [Bool.or_eq_true, Bool.not_eq_true', not_or, Bool.not_eq_false] at hnamed
    split at hset
    · cases hset
    · cases hset
    · split at hset
      · cases hset
      · next hopen =>
        have hplain := Request.plain_of_hasNul hnul new (by simp [Request.paths])
        refine ⟨reaches_of_place h ⟨names, name, hway, hup⟩ hplain hplace hnamed.2, ?_⟩
        rw [← hslash]
        simp only [Bool.or_eq_true, not_or, Bool.not_eq_true] at hopen
        exact hopen.2

/-- What is found by asking for it is a directory, or it is a file that is not asked for with a slash at the end. -/
theorem reaches_of_exists (hpath : path.EndsInName) (hfound : ((Session.exists? path).run disk).1 = true) :
    path.Sendable ∧ (disk.Passes path (disk.site path) ∨ disk.Reaches path (disk.site path) ∧
      path.endsInSlash = false ∧ ∃ text, disk.tree.get? (disk.site path) = some (.file text)) := by
  rw [Delivery.run_exists?_fst] at hfound
  cases hreply : (disk.answer (.probe path)).1 with
  | error fault => simp [hreply] at hfound
  | ok directory =>
    obtain ⟨hnul, hserve⟩ := answer_of_ok hreply
    have hplain := Request.plain_of_hasNul hnul path (by simp [Request.paths])
    rw [hserve] at hreply
    obtain ⟨entry, hentry, -⟩ := bind_eq_ok.1 hreply
    obtain ⟨place, hplace, hmet⟩ := bind_eq_ok.1 hentry
    refine ⟨⟨((place_eq_ok h).1 hplace).1, hplain⟩, ?_⟩
    obtain ⟨names, name, hway, hup⟩ := hpath
    obtain ⟨-, hthere, hslash, hnamed⟩ := place_of_way h hway hup hplace
    cases hget : disk.tree.get? (disk.site path) with
    | none => simp [hthere, hget] at hmet
    | some found =>
      rw [hthere, hget] at hmet
      obtain rfl | ⟨text, rfl⟩ := FileTree.entry_of_linkless h hget
      · obtain rfl := Except.ok.inj hmet
        exact Or.inl (passes_of_entry h hentry)
      · have hname : place.isNamed = true := hnamed.resolve_right (by simp [hget])
        refine Or.inr ⟨reaches_of_place h ⟨names, name, hway, hup⟩ hplain hplace hname, ?_, text, rfl⟩
        rw [← hslash]
        by_contra hends
        dsimp only at hmet
        rw [if_pos (by simpa using hends)] at hmet
        cases hmet

end Walked

/-- A disk on which the directories are there that a path lies in. -/
def Houses (disk : Disk) (target : Path) : Prop :=
  ∀ parent, target.parent? = some parent →
    parent.components.isEmpty = true ∨ parent.Sendable ∧ disk.Passes parent (disk.site parent)

section Houses

variable {disk after : Disk} (h : disk.tree.Linkless) {path target : Path}

include h

/-- What is found to be a directory can be passed. -/
theorem passes_of_isDirectory (hfound : ((Session.isDirectory path).run disk).1 = true) :
    path.Sendable ∧ disk.Passes path (disk.site path) := by
  unfold Session.isDirectory at hfound
  rw [Delivery.run_probe] at hfound
  cases hreply : (disk.answer (.probe path)).1 with
  | error fault => simp [hreply] at hfound
  | ok directory =>
    obtain ⟨hnul, hserve⟩ := answer_of_ok hreply
    rw [hreply] at hfound
    obtain rfl : directory = true := hfound
    rw [hserve] at hreply
    obtain ⟨entry, hentry, hvalue⟩ := bind_eq_ok.1 hreply
    obtain ⟨place, hplace, -⟩ := bind_eq_ok.1 hentry
    obtain rfl : entry = .directory := by simpa [pure, Except.pure] using hvalue
    exact ⟨⟨((place_eq_ok h).1 hplace).1, Request.plain_of_hasNul hnul path (by simp [Request.paths])⟩,
      passes_of_entry h hentry⟩

/-- Where a walk came to its end, a directory that stands there now can be passed. -/
theorem passes_of_opens {places : Location → Prop} (hopens : disk.Opens places after) (hpath : path.EndsInName)
    {follow : Bool} {place : Place} (hplace : disk.place follow path = .ok place)
    (hdirectory : after.tree.get? (disk.site path) = some .directory) : after.Passes path (after.site path) := by
  have hlinks := hopens.linkless h
  obtain ⟨names, name, hway, hup⟩ := hpath
  obtain ⟨again, hagain⟩ : ∃ again, after.place true path = .ok again :=
    place_again h hlinks hopens.here (fun _ => hopens.kept) hway hup hplace
  obtain ⟨-, hentry, -, -⟩ := place_of_way hlinks hway hup hagain
  rw [site_congr h hlinks hopens.here, hdirectory] at hentry
  apply passes_of_entry hlinks
  unfold entry
  rw [hagain]
  simp only [bind, Except.bind, hentry]

theorem passes_of_makeDirectory (hreply : (disk.answer (.makeDirectory path)).1 = .ok ()) :
    path.Sendable ∧ (disk.answer (.makeDirectory path)).2.Passes path
      ((disk.answer (.makeDirectory path)).2.site path) := by
  obtain ⟨hnul, hserve⟩ := answer_of_ok hreply
  have hopens := opens_makeDirectory disk path
  rw [hserve] at hreply hopens ⊢
  obtain ⟨tree, htree, hafter⟩ := update_eq_ok hreply
  obtain ⟨location, hvacant, hset⟩ := bind_eq_ok.1 htree
  obtain ⟨place, hplace, -⟩ := bind_eq_ok.1 hvacant
  obtain ⟨hends, rfl, hnone⟩ := vacancy_eq_ok hvacant
  obtain rfl := pure_eq_ok.1 hset
  have hturns := turns_set hends.ne_root disk .directory
  change (disk.serve (.makeDirectory path)).2 = _ at hafter
  rw [← hafter] at hturns
  exact ⟨⟨((place_eq_ok h).1 hplace).1, Request.plain_of_hasNul hnul path (by simp [Request.paths])⟩,
    passes_of_opens h hopens hends.endsInName hplace hturns.self⟩

/-- A directory that was not made, and is no harm, is there. -/
theorem passes_of_settle {fault : FileFault}
    (hdone : ((Session.makeDirectories.settle path (.error fault)).run disk).1 = .ok ()) :
    path.Sendable ∧ disk.Passes path (disk.site path) := by
  apply passes_of_isDirectory h
  unfold Session.makeDirectories.settle at hdone
  rw [Delivery.run_then] at hdone
  cases hfound : ((Session.isDirectory path).run disk).1 with
  | true => rfl
  | false =>
    rw [hfound] at hdone
    cases hdone

/-- The same of one that was asked for, whether or not it was made. -/
theorem passes_of_settled
    (hdone : ((Session.makeDirectories.settle path (disk.answer (.makeDirectory path)).1).run
      (disk.answer (.makeDirectory path)).2).1 = .ok ()) :
    path.Sendable ∧ (disk.answer (.makeDirectory path)).2.Passes path
      ((disk.answer (.makeDirectory path)).2.site path) := by
  cases hreply : (disk.answer (.makeDirectory path)).1 with
  | ok done => exact passes_of_makeDirectory h hreply
  | error fault =>
    rw [hreply, answer_of_refused hreply] at hdone
    rw [answer_of_refused hreply]
    exact passes_of_settle h hdone

theorem passes_of_makeDirectories {more : List Path}
    (hdone : ((Session.makeDirectories (path :: more)).run disk).1 = .ok ()) :
    path.components.isEmpty = true ∨ path.Sendable ∧
      ((Session.makeDirectories (path :: more)).run disk).2.Passes path
        (((Session.makeDirectories (path :: more)).run disk).2.site path) := by
  have hopens := opens_makeDirectories disk more
  by_cases hnone : path.components.isEmpty = true
  · exact Or.inl hnone
  right
  rw [Session.makeDirectories, if_neg hnone, Delivery.run_then, Delivery.run_send] at hdone ⊢
  cases hreply : (disk.answer (.makeDirectory path)).1 with
  | ok done => exact passes_of_makeDirectory h hreply
  | error fault =>
    rw [hreply, answer_of_refused hreply] at hdone
    rw [answer_of_refused hreply]
    cases fault with
    | notFound =>
      dsimp only at hdone ⊢
      rw [Delivery.run_then] at hdone ⊢
      generalize (Session.makeDirectories more).run disk = above at hopens hdone ⊢
      obtain ⟨fault | made, later⟩ := above
      · cases hdone
      · dsimp only at hopens hdone ⊢
        rw [Delivery.run_then, Delivery.run_send] at hdone ⊢
        rw [Delivery.run_settle]
        exact passes_of_settled (hopens.linkless h) hdone
    | _ =>
      dsimp only at hdone ⊢
      rw [Delivery.run_settle]
      exact passes_of_settle h hdone

/-- The directories that a file is to lie in have been made. -/
theorem houses_of_makeParent (hdone : (Delivery.played (Delivery.makeParent target) disk).1 = .ok ()) :
    (Delivery.played (Delivery.makeParent target) disk).2.Houses target := by
  intro parent hparent
  unfold Delivery.makeParent at hdone ⊢
  rw [hparent] at hdone ⊢
  rw [Delivery.played_orBlame] at hdone ⊢
  exact passes_of_makeDirectories h (mapError_eq_ok.1 hdone)

/-- Where they are there, none is made. -/
theorem Houses.makeParent_eq (hhouses : disk.Houses target) :
    Delivery.played (Delivery.makeParent target) disk = (.ok (), disk) := by
  unfold Delivery.makeParent
  cases hparent : target.parent? with
  | none => rfl
  | some parent =>
    have hmade : (Session.makeDirectories parent.ancestors).run disk = (.ok (), disk) := by
      rcases hhouses parent hparent with hnone | ⟨hsend, hpasses⟩
      · change (Session.makeDirectories (parent :: _)).run disk = _
        rw [Session.makeDirectories, if_pos hnone]
        rfl
      · exact run_makeDirectories_of_passes h hpasses hsend _
    dsimp only
    refine (Delivery.played_orBlame parent _ disk).trans ?_
    rw [hmade]
    rfl

theorem Houses.later (hhouses : disk.Houses target) (hafter : after.tree.Linkless) (hhere : after.here = disk.here)
    (hdirectories : ∀ place, disk.tree.get? place = some .directory → after.tree.get? place = some .directory) :
    after.Houses target := by
  intro parent hparent
  refine (hhouses parent hparent).imp_right fun ⟨hsend, hpasses⟩ => ⟨hsend, ?_⟩
  rw [site_congr h hafter hhere]
  exact hpasses.later h hafter hhere hdirectories

/-- A root that a file lies under, with all directories there, is one from which nothing gets in the way. -/
theorem Houses.firm {root : Path} (hpath : path.Descends) (hhouses : disk.Houses (root.join path)) :
    disk.Firm root := by
  refine ⟨h, ?_⟩
  intro _ names name hbegins hup
  obtain ⟨within, last, hway, -, hlast⟩ := hpath.exists_way
  have hwhole : (root.join path).way = root.way ++ within ++ [last] := by
    rw [Path.way_join hpath.relative, hway, List.append_assoc]
  obtain ⟨-, parent, hparent, hparentWay, habsolute⟩ := Path.parent?_of_way hwhole hlast.ne_up
  rw [Path.isAbsolute_join hpath.relative] at habsolute
  obtain ⟨rest, hrest⟩ : names ++ [name] <+: parent.way := by
    rw [hparentWay]
    exact hbegins.trans (List.prefix_append _ _)
  rcases hhouses parent hparent with hnone | ⟨-, hpasses⟩
  · obtain ⟨above, final, habove⟩ : ∃ above final, parent.way = above ++ [final] :=
      ⟨_, _, (List.dropLast_append_getLast (by rw [← hrest]; simp)).symm⟩
    rw [Path.components_of_way habove] at hnone
    cases hnone
  · have hmem : name ∈ parent.way := by rw [← hrest]; simp
    rw [Passes, FileTree.startOf_congr habsolute, ← hrest, List.append_assoc] at hpasses
    exact FileTree.directory_of_course h (Path.isName_of_mem_way hmem hup).ne_here hup hpasses

end Houses

end Disk

end EntityForge
