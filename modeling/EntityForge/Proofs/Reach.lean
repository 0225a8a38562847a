import EntityForge.Proofs.Delivery

/-!
Where paths lead on a disk without links.

There the parts of a path decide alone which place it stands for, whatever the tree holds. A walk that is not
refused ends at that place and meets what stands there, and whether it is refused depends on the directories
that it goes through. Main statements: `site_eq_reach`, `place_of_way` and `place_again`.
-/

namespace EntityForge

namespace FileTree

def Linkless (tree : FileTree) : Prop := ∀ location, tree.link? location = none

/-- The place that some steps lead to where there are no links. -/
def reach : Location → List String → Location
  | here, [] => here
  | here, "." :: rest => reach here rest
  | here, ".." :: rest => reach here.dropLast rest
  | here, name :: rest => reach (here ++ [name]) rest

section Reach

variable {here : Location} {name : String} {rest : List String}

theorem reach_name (hhere : name ≠ ".") (hup : name ≠ "..") :
    reach here (name :: rest) = reach (here ++ [name]) rest := by
  rw [reach]
  · exact hhere
  · exact hup

theorem reach_append (here : Location) (steps more : List String) :
    reach here (steps ++ more) = reach (reach here steps) more := by
  induction here, steps using steps_induction with
  | nil here => rfl
  | stay here rest ih => simpa [reach] using ih
  | up here rest ih => simpa [reach] using ih
  | name here name rest hhere hup ih =>
    rw [List.cons_append, reach_name hhere hup, reach_name hhere hup, ih]

theorem reach_names {names : List String} (hnames : ∀ name ∈ names, IsName name) :
    reach here names = here ++ names := by
  induction names generalizing here with
  | nil => simp [reach]
  | cons name names ih =>
    obtain ⟨hname, hnames⟩ := List.forall_mem_cons.1 hnames
    rw [reach_name hname.ne_here hname.ne_up, ih hnames, List.append_assoc, List.singleton_append]

/-- Steps that stay where they are can be left out. -/
theorem reach_filter (here : Location) (steps : List String) :
    reach here (steps.filter (· ≠ ".")) = reach here steps := by
  induction here, steps using steps_induction with
  | nil here => rfl
  | stay here rest ih => simpa [reach] using ih
  | up here rest ih => simpa [reach] using ih
  | name here name rest hhere hup ih =>
    rw [List.filter_cons, if_pos (by simpa using hhere), reach_name hhere hup, reach_name hhere hup, ih]

/-- A walk that arrives without having met a link comes to where its steps lead. -/
theorem location_of_stroll {tree : FileTree} {steps : List String} {follow slash : Bool} {place : Place}
    (h : tree.stroll follow slash here steps = .arrived place) : place.location = reach here steps := by
  induction here, steps using steps_induction with
  | nil here =>
    cases h
    rfl
  | stay here rest ih => exact ih (by simpa [stroll] using h)
  | up here rest ih => exact ih (by simpa [stroll] using h)
  | name here name rest hhere hup ih =>
    rw [reach_name hhere hup]
    obtain ⟨-, ⟨rfl, rfl⟩ | ⟨-, -, hrest⟩⟩ := arrived_cases hhere hup h
    · rfl
    · exact ih hrest

theorem stroll_stay {steps : List String} (tree : FileTree) (follow slash : Bool) (here : Location)
    (hsteps : ∀ step ∈ steps, step = ".") :
    tree.stroll follow slash here steps = .arrived ⟨here, some .directory, false, slash⟩ := by
  induction steps with
  | nil => rfl
  | cons step steps ih =>
    obtain ⟨hstep, hrest⟩ := List.forall_mem_cons.1 hsteps
    rw [hstep, stroll]
    exact ih hrest

end Reach

section Linkless

variable {tree other : FileTree} (h : tree.Linkless) {here location : Location} {name : String}
  {steps before after : List String}

include h

theorem drift_of_linkless (here : Location) (steps : List String) :
    tree.drift here steps = (reach here steps, none) := by
  induction here, steps using steps_induction with
  | nil here => rfl
  | stay here rest ih => simpa [drift, reach] using ih
  | up here rest ih => simpa [drift, reach] using ih
  | name here name rest hhere hup ih => rw [drift_name hhere hup, h, ih, reach_name hhere hup]

theorem landing_of_linkless (links : Nat) (here : Location) (steps : List String) :
    tree.landing links here steps = reach here steps :=
  landing_of_end (drift_of_linkless h here steps)

/-- Whoever gets through comes to where the steps lead. -/
theorem course_of_linkless {result : Location × Option (Path × List String)}
    (hcourse : tree.course here steps = .ok result) : result = (reach here steps, none) := by
  rw [← drift_of_course hcourse, drift_of_linkless h]

theorem entry_of_linkless {entry : Entry} (hentry : tree.get? location = some entry) :
    entry = .directory ∨ ∃ contents, entry = .file contents := by
  cases entry with
  | directory => exact Or.inl rfl
  | file contents => exact Or.inr ⟨contents, rfl⟩
  | link target => exact absurd hentry (link?_eq_none.1 (h location) target)

theorem course_filter (here : Location) (steps : List String) :
    tree.course here (steps.filter (· ≠ ".")) = tree.course here steps := by
  induction here, steps using steps_induction with
  | nil here => rfl
  | stay here rest ih => simpa [course] using ih
  | up here rest ih => simpa [course] using ih
  | name here name rest hhere hup ih =>
    rw [List.filter_cons, if_pos (by simpa using hhere), course_name hhere hup, course_name hhere hup, ih]
    cases hentry : tree.get? (here ++ [name]) with
    | none => rfl
    | some entry =>
      obtain rfl | ⟨contents, rfl⟩ := entry_of_linkless h hentry <;> rfl

/-- Whoever gets through has met a directory at every name. -/
theorem directory_of_course {result : Location × Option (Path × List String)} (hhere : name ≠ ".")
    (hup : name ≠ "..") (hcourse : tree.course here (before ++ name :: after) = .ok result) :
    tree.get? (reach here before ++ [name]) = some .directory := by
  induction here, before using steps_induction with
  | nil here =>
    obtain ⟨-, ⟨hdirectory, -⟩ | ⟨target, hlink, -⟩⟩ := course_cases hhere hup hcourse
    · exact hdirectory
    · exact absurd hlink (link?_eq_none.1 (h _) target)
  | stay here rest ih => exact ih (by simpa [course] using hcourse)
  | up here rest ih => exact ih (by simpa [course] using hcourse)
  | name here first rest hfirst hfirstUp ih =>
    rw [reach_name hfirst hfirstUp]
    obtain ⟨-, ⟨-, hrest⟩ | ⟨target, hlink, -⟩⟩ := course_cases hfirst hfirstUp hcourse
    · exact ih hrest
    · exact absurd hlink (link?_eq_none.1 (h _) target)

/-- Whoever arrives has met a directory at every name before the last step. -/
theorem directory_of_stroll (hhere : name ≠ ".") (hup : name ≠ "..") (hafter : after ≠ [])
    {follow slash : Bool} {place : Place}
    (hstroll : tree.stroll follow slash here (before ++ name :: after) = .arrived place) :
    tree.get? (reach here before ++ [name]) = some .directory := by
  have hsplit : before ++ name :: after = before ++ [name] ++ after := by simp
  rw [hsplit, stroll_append hafter] at hstroll
  split at hstroll
  · cases hstroll
  · next hcourse => exact directory_of_course h hhere hup hcourse
  · cases hstroll

theorem stroll_ne_linked (follow slash : Bool) (here : Location) (steps : List String)
    (directory : Location) (target : Path) (rest : List String) :
    tree.stroll follow slash here steps ≠ .linked directory target rest := by
  intro hstroll
  induction here, steps using steps_induction with
  | nil here => cases hstroll
  | stay here rest ih => exact ih (by simpa [stroll] using hstroll)
  | up here rest ih => exact ih (by simpa [stroll] using hstroll)
  | name here name rest hhere hup ih =>
    rcases linked_cases hhere hup hstroll with ⟨hlink, -⟩ | ⟨-, -, hrest⟩
    · rw [h] at hlink
      cases hlink
    · exact ih hrest

/-- The end of a walk, from the directory in which its last name is looked up. Steps that stay there ask
for a directory. -/
theorem stroll_ending (hhere : name ≠ ".") (hup : name ≠ "..") (hafter : ∀ step ∈ after, step = ".")
    {follow slash : Bool} {place : Place} :
    tree.stroll follow slash here (name :: after) = .arrived place ↔
      name.utf8ByteSize ≤ nameLimit ∧
        (after = [] ∧ place = ⟨here ++ [name], tree.get? (here ++ [name]), true, slash⟩ ∨
          after ≠ [] ∧ tree.get? (here ++ [name]) = some .directory ∧
            place = ⟨here ++ [name], some .directory, false, slash⟩) := by
  have hstay (location : Location) := stroll_stay tree follow slash location hafter
  rw [stroll_name hhere hup]
  by_cases hlong : name.utf8ByteSize > nameLimit
  · simp [hlong, Nat.not_le.2 hlong]
  · have hshort : name.utf8ByteSize ≤ nameLimit := Nat.not_lt.1 hlong
    rw [if_neg hlong]
    cases after with
    | nil =>
      cases hentry : tree.get? (here ++ [name]) with
      | none => simp [hshort, eq_comm]
      | some entry =>
        obtain rfl | ⟨contents, rfl⟩ := entry_of_linkless h hentry <;> simp [hshort, eq_comm]
    | cons step after =>
      cases hentry : tree.get? (here ++ [name]) with
      | none => simp
      | some entry =>
        obtain rfl | ⟨contents, rfl⟩ := entry_of_linkless h hentry
        · simp [hshort, hstay, eq_comm]
        · simp

theorem walk_of_linkless (follow slash : Bool) (links : Nat) (here : Location) (steps : List String)
    (place : Place) :
    tree.walk follow slash links here steps = .ok place ↔
      tree.stroll follow slash here steps = .arrived place := by
  unfold walk
  cases hstroll : tree.stroll follow slash here steps with
  | arrived found => simp
  | stopped fault => simp
  | linked directory target rest => exact absurd hstroll (stroll_ne_linked h _ _ _ _ _ _ _)

end Linkless

/-- No walk is refused because something is there. -/
theorem stroll_ne_alreadyExists (tree : FileTree) (follow slash : Bool) (here : Location)
    (steps : List String) : tree.stroll follow slash here steps ≠ .stopped .alreadyExists := by
  intro hstroll
  induction here, steps using steps_induction with
  | nil here => cases hstroll
  | stay here rest ih => exact ih (by simpa [stroll] using hstroll)
  | up here rest ih => exact ih (by simpa [stroll] using hstroll)
  | name here name rest hhere hup ih =>
    rw [stroll_name hhere hup] at hstroll
    split at hstroll
    · cases hstroll
    · split at hstroll
      · split at hstroll <;> cases hstroll
      · split at hstroll
        · cases hstroll
        · exact ih hstroll
      · split at hstroll <;> cases hstroll
      · split at hstroll <;> cases hstroll

theorem walk_ne_alreadyExists (tree : FileTree) (follow slash : Bool) (links : Nat) (here : Location)
    (steps : List String) : tree.walk follow slash links here steps ≠ .error .alreadyExists := by
  intro hwalk
  induction links generalizing slash here steps with
  | zero =>
    unfold walk at hwalk
    split at hwalk
    · cases hwalk
    · next hstopped =>
      cases hwalk
      exact stroll_ne_alreadyExists tree _ _ _ _ hstopped
    · cases hwalk
  | succ links ih =>
    unfold walk at hwalk
    split at hwalk
    · cases hwalk
    · next hstopped =>
      cases hwalk
      exact stroll_ne_alreadyExists tree _ _ _ _ hstopped
    · exact ih _ _ _ hwalk

end FileTree

namespace Path

/-- The steps of a path that ends in a name. -/
theorem steps_of_way {path : Path} {names : List String} {name : String}
    (hway : path.way = names ++ [name]) :
    name ≠ "." ∧ ∃ before after, FileTree.steps path = before ++ name :: after ∧
      (∀ step ∈ after, step = ".") ∧ before.filter (· ≠ ".") = names := by
  rw [way_eq_filter] at hway
  obtain ⟨before, ending, hsteps, hbefore, hending⟩ := List.filter_eq_append_iff.1 hway
  obtain ⟨idle, after, rfl, hidle, hname, hafter⟩ := List.filter_eq_cons_iff.1 hending
  have hnone : idle.filter (· ≠ ".") = [] := by simpa using hidle
  refine ⟨by simpa using hname, before ++ idle, after, by simp [hsteps], ?_, ?_⟩
  · simpa using List.filter_eq_nil_iff.1 hafter
  · rw [List.filter_append, hbefore, hnone, List.append_nil]

/-- Where nothing idle comes after the last name, what stands before it leads where the names before it do. -/
theorem EndsInWay.steps_eq {path : Path} (hends : path.EndsInWay) {names : List String} {name : String}
    (hway : path.way = names ++ [name]) :
    ∃ before, FileTree.steps path = before ++ [name] ∧ before.filter (· ≠ ".") = names := by
  obtain ⟨hhere, -⟩ := steps_of_way hway
  obtain ⟨before, hsteps⟩ := hends names name hway
  rw [way_eq_filter, hsteps, List.filter_append, List.filter_singleton, decide_eq_true hhere] at hway
  exact ⟨before, hsteps, (List.append_inj' hway rfl).1⟩

end Path

namespace Disk

variable {disk other : Disk} {path : Path} {names : List String} {name : String}

theorem site_eq_reach (h : disk.tree.Linkless) (path : Path) :
    disk.site path = FileTree.reach (FileTree.startOf path disk.here) path.way := by
  rw [site, FileTree.landing_of_linkless h, Path.way_eq_filter, FileTree.reach_filter]

theorem site_of_way (h : disk.tree.Linkless) (hway : path.way = names ++ [name]) (hup : name ≠ "..") :
    disk.site path = FileTree.reach (FileTree.startOf path disk.here) names ++ [name] := by
  obtain ⟨hhere, -⟩ := Path.steps_of_way hway
  rw [site_eq_reach h, hway, FileTree.reach_append, FileTree.reach_name hhere hup]
  rfl

theorem place_eq_ok (h : disk.tree.Linkless) {follow : Bool} {place : Place} :
    disk.place follow path = .ok place ↔
      path.text.utf8ByteSize ≤ pathLimit ∧ path.text ≠ "" ∧
        disk.tree.stroll follow path.endsInSlash (FileTree.startOf path disk.here)
          (FileTree.steps path) = .arrived place := by
  unfold Disk.place FileTree.place
  by_cases hlong : path.text.utf8ByteSize > pathLimit
  · simp [hlong, Nat.not_le.2 hlong]
  · have hshort : path.text.utf8ByteSize ≤ pathLimit := Nat.not_lt.1 hlong
    rw [if_neg hlong]
    by_cases hempty : path.text = ""
    · simp [hempty]
    · rw [if_neg (by simpa [String.isEmpty_iff] using hempty), FileTree.walk_of_linkless h]
      simp [hshort, hempty]

theorem place_ne_alreadyExists (disk : Disk) (follow : Bool) (path : Path) :
    disk.place follow path ≠ .error .alreadyExists := by
  unfold Disk.place FileTree.place
  split
  · simp
  · split
    · simp
    · exact FileTree.walk_ne_alreadyExists _ _ _ _ _ _

theorem place_of_entry (h : disk.entry path = .ok .directory) :
    ∃ place, disk.place true path = .ok place ∧ place.entry? = some .directory := by
  obtain ⟨place, hplace, hmet⟩ := bind_eq_ok.1 h
  refine ⟨place, hplace, ?_⟩
  split at hmet
  · cases hmet
  · next hentry => exact hentry
  · next hdirectory hentry =>
    split at hmet
    · cases hmet
    · obtain rfl := Except.ok.inj hmet
      exact absurd rfl hdirectory

/-- A walk that is not refused has come to the place of the path, and if that place is named has met what
stands there. -/
theorem place_of_named (h : disk.tree.Linkless) {follow : Bool} {place : Place}
    (hplace : disk.place follow path = .ok place) :
    place.location = disk.site path ∧
      (place.isNamed = true → place.entry? = disk.tree.get? (disk.site path)) := by
  obtain ⟨-, -, hstroll⟩ := (place_eq_ok h).1 hplace
  have hlocation : place.location = disk.site path := by
    rw [site, FileTree.landing_of_linkless h]
    exact FileTree.location_of_stroll hstroll
  refine ⟨hlocation, ?_⟩
  intro hnamed
  rw [FileTree.stroll_entry hstroll hnamed, hlocation]

/-- The same for a path that ends in a name, which may have idle parts after it. -/
theorem place_of_way (h : disk.tree.Linkless) (hway : path.way = names ++ [name]) (hup : name ≠ "..")
    {follow : Bool} {place : Place} (hplace : disk.place follow path = .ok place) :
    place.location = disk.site path ∧ place.entry? = disk.tree.get? (disk.site path) ∧
      place.endsInSlash = path.endsInSlash ∧
      (place.isNamed = true ∨ disk.tree.get? (disk.site path) = some .directory) := by
  obtain ⟨hhere, before, after, hsteps, hafter, hbefore⟩ := Path.steps_of_way hway
  obtain ⟨-, -, hstroll⟩ := (place_eq_ok h).1 hplace
  rw [hsteps, FileTree.stroll_append (List.cons_ne_nil name after)] at hstroll
  rw [site_of_way h hway hup, ← hbefore, FileTree.reach_filter]
  cases hcourse : disk.tree.course (FileTree.startOf path disk.here) before with
  | error fault => simp [hcourse] at hstroll
  | ok result =>
    obtain rfl := FileTree.course_of_linkless h hcourse
    simp only [hcourse] at hstroll
    obtain ⟨-, ⟨-, rfl⟩ | ⟨-, hdirectory, rfl⟩⟩ := (FileTree.stroll_ending h hhere hup hafter).1 hstroll
    · exact ⟨rfl, rfl, rfl, Or.inl rfl⟩
    · exact ⟨rfl, hdirectory.symm, rfl, Or.inr hdirectory⟩

/-- A walk that is not refused has met a directory at every name of the path but the last. -/
theorem directory_of_place (h : disk.tree.Linkless) {before after : List String}
    (hway : path.way = before ++ name :: after) (hafter : after ≠ []) (hup : name ≠ "..") {follow : Bool}
    {place : Place} (hplace : disk.place follow path = .ok place) :
    disk.tree.get? (FileTree.reach (FileTree.startOf path disk.here) before ++ [name]) =
      some .directory := by
  obtain ⟨-, -, hstroll⟩ := (place_eq_ok h).1 hplace
  rw [Path.way_eq_filter] at hway
  obtain ⟨first, ending, hsteps, hfirst, hending⟩ := List.filter_eq_append_iff.1 hway
  obtain ⟨idle, more, rfl, hidle, hname, hmore⟩ := List.filter_eq_cons_iff.1 hending
  have hnone : idle.filter (· ≠ ".") = [] := by simpa using hidle
  have hbefore : (first ++ idle).filter (· ≠ ".") = before := by
    rw [List.filter_append, hfirst, hnone, List.append_nil]
  have hne : more ≠ [] := by
    rintro rfl
    exact hafter hmore.symm
  rw [hsteps, ← List.append_assoc] at hstroll
  rw [← hbefore, FileTree.reach_filter]
  exact FileTree.directory_of_stroll h (by simpa using hname) hup hne hstroll

/-- A walk that is not refused is not refused where there are the same directories and more. -/
theorem place_again (h : disk.tree.Linkless) (hother : other.tree.Linkless) (hhere : other.here = disk.here)
    (hdirectories : ∀ location, disk.tree.get? location = some .directory →
      other.tree.get? location = some .directory)
    (hway : path.way = names ++ [name]) (hup : name ≠ "..") {follow again : Bool} {place : Place}
    (hplace : disk.place follow path = .ok place) : ∃ place, other.place again path = .ok place := by
  obtain ⟨hname, before, after, hsteps, hafter, -⟩ := Path.steps_of_way hway
  obtain ⟨hshort, hne, hstroll⟩ := (place_eq_ok h).1 hplace
  rw [hsteps, FileTree.stroll_append (List.cons_ne_nil name after)] at hstroll
  simp only [place_eq_ok hother, hshort, hne, hsteps, ne_eq, not_false_eq_true, true_and, hhere,
    FileTree.stroll_append (List.cons_ne_nil name after)]
  have hlinks (location : Location) : other.tree.link? location = disk.tree.link? location := by
    rw [h, hother]
  cases hcourse : disk.tree.course (FileTree.startOf path disk.here) before with
  | error fault => simp [hcourse] at hstroll
  | ok result =>
    obtain rfl := FileTree.course_of_linkless h hcourse
    rw [FileTree.course_later hlinks hdirectories hcourse]
    simp only [hcourse] at hstroll
    obtain ⟨hlength, ⟨hlast, -⟩ | ⟨hmore, hdirectory, -⟩⟩ :=
      (FileTree.stroll_ending h hname hup hafter).1 hstroll
    · exact ⟨_, (FileTree.stroll_ending hother hname hup hafter).2 ⟨hlength, Or.inl ⟨hlast, rfl⟩⟩⟩
    · exact ⟨_, (FileTree.stroll_ending hother hname hup hafter).2
        ⟨hlength, Or.inr ⟨hmore, hdirectories _ hdirectory, rfl⟩⟩⟩

end Disk

end EntityForge
