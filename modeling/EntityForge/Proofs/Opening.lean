import EntityForge.Proofs.Reach
import Mathlib.Logic.Function.Basic

/-!
Which directories come up on the way to a file, and where.

A request for a directory makes one at the place at which the last name of its path is looked up, or none.
Below a root that is there, or that only lacks directories, nothing comes up but what the file is to lie in.
Main statements: `vacancy_eq_ok`, `opens_makeDirectories`, `opens_makeParent` and `Makes.below_root`.
-/

namespace EntityForge

/-- A path that ends in a name, idle parts aside. -/
def Path.EndsInName (path : Path) : Prop :=
  ∃ names name, path.way = names ++ [name] ∧ name ≠ ".."

namespace FileTree

variable {tree : FileTree} {location : Location}

theorem get?_set_eq (h : location ≠ []) (entry : Entry) :
    (tree.set location entry).get? = Function.update tree.get? location (some entry) := by
  funext other
  by_cases hother : other = location
  · subst hother
    rw [get?_set _ _ _ _ h, if_pos rfl, Function.update_self]
  · rw [Function.update_of_ne hother]
    by_cases hnil : other = []
    · rw [hnil]
      rfl
    · rw [get?_set _ _ _ _ hnil, if_neg (Ne.symm hother)]

theorem get?_erase_eq (h : location ≠ []) :
    (tree.erase location).get? = Function.update tree.get? location none := by
  funext other
  by_cases hother : other = location
  · subst hother
    rw [get?_erase _ _ _ h, if_pos rfl, Function.update_self]
  · rw [Function.update_of_ne hother]
    by_cases hnil : other = []
    · rw [hnil]
      rfl
    · rw [get?_erase _ _ _ hnil, if_neg (Ne.symm hother)]

end FileTree

namespace Disk

/-- Directories come up, at some places and only where nothing was. -/
structure Opens (places : Location → Prop) (before after : Disk) : Prop where
  here : after.here = before.here
  others : ∀ location, after.tree.get? location = before.tree.get? location ∨
    before.tree.get? location = none ∧ after.tree.get? location = some .directory ∧ places location

/-- One place changes, and no other. -/
structure Turns (location : Location) (occupant? : Option Entry) (before after : Disk) : Prop where
  here : after.here = before.here
  get? : after.tree.get? = Function.update before.tree.get? location occupant?

section Relations

variable {places more : Location → Prop} {location : Location} {occupant? : Option Entry}
  {before between after : Disk}

namespace Opens

theorem refl (disk : Disk) : Opens places disk disk := ⟨rfl, fun _ => Or.inl rfl⟩

theorem trans (first : Opens places before between) (second : Opens places between after) :
    Opens places before after where
  here := second.here.trans first.here
  others location := by
    rcases first.others location with hfirst | ⟨hnone, hdirectory, hplace⟩
    · rw [← hfirst]
      exact second.others location
    · rcases second.others location with hsecond | ⟨hvacant, -, -⟩
      · exact Or.inr ⟨hnone, hsecond.trans hdirectory, hplace⟩
      · rw [hdirectory] at hvacant
        cases hvacant

theorem mono (h : Opens places before after)
    (hplaces : ∀ location, before.tree.get? location = none → places location → more location) :
    Opens more before after where
  here := h.here
  others location := (h.others location).imp_right fun ⟨hnone, hdirectory, hplace⟩ =>
    ⟨hnone, hdirectory, hplaces location hnone hplace⟩

/-- What is there stays. -/
theorem kept (h : Opens places before after) {entry : Entry}
    (hentry : before.tree.get? location = some entry) : after.tree.get? location = some entry := by
  rcases h.others location with hsame | ⟨hnone, -, -⟩
  · rw [hsame, hentry]
  · rw [hentry] at hnone
    cases hnone

theorem elsewhere (h : Opens places before after) (hplace : ¬places location) :
    after.tree.get? location = before.tree.get? location := by
  rcases h.others location with hsame | ⟨-, -, hopened⟩
  · exact hsame
  · exact absurd hopened hplace

theorem link? (h : Opens places before after) (location : Location) :
    after.tree.link? location = before.tree.link? location := by
  rcases h.others location with hsame | ⟨hnone, hdirectory, -⟩
  · rw [FileTree.link?, FileTree.link?, hsame]
  · simp [FileTree.link?, hnone, hdirectory, Entry.target?]

theorem linkless (h : Opens places before after) (hlinks : before.tree.Linkless) :
    after.tree.Linkless := by
  intro location
  rw [h.link?]
  exact hlinks location

end Opens

namespace Turns

theorem self (h : Turns location occupant? before after) : after.tree.get? location = occupant? := by
  rw [h.get?, Function.update_self]

theorem other (h : Turns location occupant? before after) {other : Location} (hne : other ≠ location) :
    after.tree.get? other = before.tree.get? other := by
  rw [h.get?, Function.update_of_ne hne]

theorem linkless (h : Turns location occupant? before after) (hlinks : before.tree.Linkless)
    (hentry : occupant?.bind Entry.target? = none) : after.tree.Linkless := by
  intro place
  rw [FileTree.link?]
  by_cases hplace : place = location
  · rw [hplace, h.self]
    exact hentry
  · rw [h.other hplace]
    exact hlinks place

/-- Directories stay where the place that changes is none. -/
theorem directory (h : Turns location occupant? before after)
    (hfree : before.tree.get? location ≠ some .directory) (place : Location)
    (hplace : before.tree.get? place = some .directory) : after.tree.get? place = some .directory := by
  have hne : place ≠ location := by
    rintro rfl
    exact hfree hplace
  rw [h.other hne, hplace]

/-- No directory comes up where the place that changes becomes none. -/
theorem directory_before (h : Turns location occupant? before after) (hentry : occupant? ≠ some .directory)
    (place : Location) (hplace : after.tree.get? place = some .directory) :
    before.tree.get? place = some .directory := by
  have hne : place ≠ location := by
    rintro rfl
    rw [h.self] at hplace
    exact hentry hplace
  rw [← h.other hne, hplace]

end Turns

/-- A path leads to one place on all disks without links on which it starts at the same one. -/
theorem site_congr (h : before.tree.Linkless) (hafter : after.tree.Linkless)
    (hhere : after.here = before.here) (path : Path) : after.site path = before.site path := by
  rw [site_eq_reach h, site_eq_reach hafter, hhere]

end Relations

section Replies

variable {disk : Disk} {request : Request}

theorem answer_of_ok {value : request.Answer} (h : (disk.answer request).1 = .ok value) :
    request.hasNul = false ∧ disk.answer request = disk.serve request := by
  unfold answer at h ⊢
  split at h
  · cases h
  · next hnul => exact ⟨by simpa using hnul, if_neg hnul⟩

theorem answer_of_error {fault : FileFault} (h : (disk.answer request).1 = .error fault)
    (hfault : fault ≠ .nulByte) :
    request.hasNul = false ∧ disk.answer request = disk.serve request := by
  unfold answer at h ⊢
  split at h
  · exact absurd (Except.error.inj h).symm hfault
  · next hnul => exact ⟨by simpa using hnul, if_neg hnul⟩

theorem answer_of_not_nul (h : request.hasNul = false) : disk.answer request = disk.serve request := by
  unfold answer
  rw [if_neg (by simp [h])]

variable {result : Except FileFault FileTree}

theorem update_eq_ok (h : (disk.update result).1 = .ok ()) :
    ∃ tree, result = .ok tree ∧ (disk.update result).2 = { disk with tree := tree } := by
  cases result with
  | ok tree => exact ⟨tree, rfl, rfl⟩
  | error fault => cases h

theorem update_eq_error {fault : FileFault} (h : (disk.update result).1 = .error fault) :
    result = .error fault ∧ (disk.update result).2 = disk := by
  cases result with
  | ok tree => cases h
  | error other => exact ⟨congrArg Except.error (Except.error.inj h), rfl⟩

theorem turns_set {location : Location} (h : location ≠ []) (disk : Disk) (entry : Entry) :
    Turns location (some entry) disk { disk with tree := disk.tree.set location entry } :=
  ⟨rfl, FileTree.get?_set_eq h entry⟩

theorem turns_erase {location : Location} (h : location ≠ []) (disk : Disk) :
    Turns location none disk { disk with tree := disk.tree.erase location } :=
  ⟨rfl, FileTree.get?_erase_eq h⟩

end Replies

/-- The place at which the last name of a path is looked up: links are followed before it, and not there. -/
def EndsAt (disk : Disk) (path : Path) (location : Location) : Prop :=
  ∃ names name, path.way = names ++ [name] ∧ name ≠ ".." ∧
    location = disk.tree.landing FileTree.linkLimit (FileTree.startOf path disk.here) names ++ [name]

/-- The places of the directories that a path lies in. -/
def Above (disk : Disk) (target : Path) (location : Location) : Prop :=
  ∃ parent, target.parent? = some parent ∧
    ∃ path ∈ parent.ancestors, path.EndsInName ∧ location = disk.site path

/-- The places at which directories may come up when those are made that a path lies in. -/
def Makes (disk : Disk) (target : Path) (location : Location) : Prop :=
  ∃ parent, target.parent? = some parent ∧ ∃ path ∈ parent.ancestors, disk.EndsAt path location

section Openings

variable {disk after : Disk} {path root target : Path} {location : Location}

/-- Parts of a path that stay where they are can be left out. -/
theorem site_eq_landing (disk : Disk) (path : Path) : disk.site path =
    disk.tree.landing FileTree.linkLimit (FileTree.startOf path disk.here) path.way := by
  rw [site, Path.way_eq_filter, FileTree.landing_filter]

namespace EndsAt

theorem endsInName (h : disk.EndsAt path location) : path.EndsInName := by
  obtain ⟨names, name, hway, hup, -⟩ := h
  exact ⟨names, name, hway, hup⟩

theorem ne_root (h : disk.EndsAt path location) : location ≠ [] := by
  obtain ⟨names, name, -, -, rfl⟩ := h
  simp

/-- Where links are the same, and the working directory, paths end at the same places. -/
theorem congr (hlinks : ∀ place, after.tree.link? place = disk.tree.link? place)
    (hhere : after.here = disk.here) (h : after.EndsAt path location) : disk.EndsAt path location := by
  obtain ⟨names, name, hway, hup, rfl⟩ := h
  exact ⟨names, name, hway, hup, by rw [FileTree.landing_congr hlinks, hhere]⟩

/-- Where there is no link at its end, that is the place of the path. -/
theorem site_eq (h : disk.EndsAt path location) (hlink : disk.tree.link? location = none) :
    location = disk.site path := by
  obtain ⟨names, name, hway, hup, rfl⟩ := h
  have hname : IsName name := Path.isName_of_mem_way (show name ∈ path.way by simp [hway]) hup
  rw [site_eq_landing, hway]
  refine (FileTree.landing_names (List.forall_mem_singleton.2 hname) ?_).symm
  intro below hne hbegins
  obtain ⟨first, rest, rfl⟩ := List.exists_cons_of_ne_nil hne
  obtain ⟨rfl, hrest⟩ := List.cons_prefix_cons.1 hbegins
  rw [List.prefix_nil.1 hrest]
  exact hlink

end EndsAt

theorem link?_of_none (h : disk.tree.get? location = none) : disk.tree.link? location = none := by
  simp [FileTree.link?, h]

/-- A walk that ends in a name, and does not follow a link there, ends where the path does. -/
theorem endsAt_of_place {place : Place} (hplace : disk.place false path = .ok place)
    (hnamed : place.isNamed = true) :
    disk.EndsAt path place.location ∧ place.entry? = disk.tree.get? place.location := by
  unfold Disk.place FileTree.place at hplace
  split at hplace
  · cases hplace
  · split at hplace
    · cases hplace
    · refine ⟨?_, FileTree.walk_entry hplace hnamed⟩
      rcases List.eq_nil_or_concat (FileTree.steps path) with hnil | ⟨above, name, hsteps⟩
      · rw [hnil, FileTree.walk] at hplace
        obtain rfl := Except.ok.inj hplace
        cases hnamed
      · rw [hsteps, List.concat_eq_append] at hplace
        obtain ⟨hhere, hup, hlocation⟩ := FileTree.walk_named hplace hnamed
        refine ⟨above.filter (· ≠ "."), name, ?_, hup, ?_⟩
        · rw [Path.way_eq_filter, hsteps, List.concat_eq_append, List.filter_append,
            List.filter_singleton, decide_eq_true hhere]
          rfl
        · rw [hlocation, FileTree.landing_filter]

/-- A path with a place for something new ends in a name, and only for a directory with a slash. -/
theorem place_of_vacancy {directory : Bool} (hvacant : disk.vacancy directory path = .ok location) :
    ∃ place, disk.place false path = .ok place ∧ place.location = location ∧ place.isNamed = true ∧
      (place.endsInSlash = true → directory = true) := by
  obtain ⟨place, hplace, hlocation⟩ := bind_eq_ok.1 hvacant
  split at hlocation
  · cases hlocation
  · next hfree =>
    split at hlocation
    · cases hlocation
    · next hopen =>
      have hnamed : place.isNamed = true := by
        by_contra hnot
        simp [hnot] at hfree
      exact ⟨place, hplace, Except.ok.inj hlocation, hnamed, fun hslash => by simpa [hslash] using hopen⟩

theorem vacancy_eq_ok {directory : Bool} (hvacant : disk.vacancy directory path = .ok location) :
    disk.EndsAt path location ∧ location = disk.site path ∧ disk.tree.get? location = none := by
  have hnone := vacancy_entry hvacant
  obtain ⟨place, hplace, rfl, hnamed, -⟩ := place_of_vacancy hvacant
  obtain ⟨hends, -⟩ := endsAt_of_place hplace hnamed
  exact ⟨hends, hends.site_eq (link?_of_none hnone), hnone⟩

theorem opens_makeDirectory (disk : Disk) (path : Path) :
    Opens (disk.EndsAt path) disk (disk.answer (.makeDirectory path)).2 := by
  unfold answer
  split
  · exact Opens.refl disk
  · change Opens _ disk (disk.update (disk.makeDirectory path)).2
    cases htree : disk.makeDirectory path with
    | error fault => exact Opens.refl disk
    | ok tree =>
      obtain ⟨location, hvacant, hset⟩ := bind_eq_ok.1 htree
      obtain rfl := pure_eq_ok.1 hset
      obtain ⟨hends, -, hnone⟩ := vacancy_eq_ok hvacant
      obtain ⟨hhere, hget⟩ := turns_set hends.ne_root disk .directory
      refine ⟨hhere, fun other => ?_⟩
      rw [update, hget]
      by_cases hother : other = location
      · subst hother
        rw [Function.update_self]
        exact Or.inr ⟨hnone, rfl, hends⟩
      · exact Or.inl (Function.update_of_ne hother _ _)

theorem opens_makeDirectories (disk : Disk) (paths : List Path) :
    Opens (fun location => ∃ path ∈ paths, disk.EndsAt path location) disk
      ((Session.makeDirectories paths).run disk).2 := by
  -- a relation between two disks that also carries that paths still end where they did at first
  let relation (before after : Disk) : Prop := before.here = disk.here →
    (∀ place, before.tree.link? place = disk.tree.link? place) →
    Opens (fun location => ∃ path ∈ paths, disk.EndsAt path location) before after
  refine Delivery.run_makeDirectories relation ?_ ?_ ?_ disk rfl fun _ => rfl
  · intro disk _ _
    exact Opens.refl disk
  · intro first second third hfirst hsecond hhere hlinks
    have hopens := hfirst hhere hlinks
    exact hopens.trans (hsecond (hopens.here.trans hhere) fun place => (hopens.link? place).trans (hlinks place))
  · intro path hpath before hhere hlinks
    refine (opens_makeDirectory before path).mono ?_
    intro location _ hends
    exact ⟨path, hpath, hends.congr hlinks hhere⟩

theorem opens_makeParent (disk : Disk) (target : Path) :
    Opens (disk.Makes target) disk (Delivery.played (Delivery.makeParent target) disk).2 := by
  unfold Delivery.makeParent
  cases hparent : target.parent? with
  | none => exact Opens.refl disk
  | some parent =>
    rw [Delivery.played_orBlame]
    refine (opens_makeDirectories disk parent.ancestors).mono ?_
    intro location _ hlocation
    exact ⟨parent, hparent, hlocation⟩

theorem Makes.above (h : disk.Makes target location) (hnone : disk.tree.get? location = none) :
    disk.Above target location := by
  obtain ⟨parent, hparent, path, hpath, hends⟩ := h
  exact ⟨parent, hparent, path, hpath, hends.endsInName, hends.site_eq (link?_of_none hnone)⟩

theorem Above.makes (hlinks : disk.tree.Linkless) (h : disk.Above target location) :
    disk.Makes target location := by
  obtain ⟨parent, hparent, path, hpath, ⟨names, name, hway, hup⟩, rfl⟩ := h
  refine ⟨parent, hparent, path, hpath, names, name, hway, hup, ?_⟩
  rw [site_of_way hlinks hway hup, FileTree.landing_of_linkless hlinks]

/-- A root below which nothing comes up when the directories are made that it lies in itself: all of them are
there, or it does not step up and there are no links below what is missing. -/
structure Grounded (disk : Disk) (root : Path) : Prop where
  plain : disk.IsPlain root
  stands :
    (∀ path location, path.way <+: root.way → path.isAbsolute = root.isAbsolute →
      disk.EndsAt path location →
      disk.tree.get? location = some .directory ∨ ∃ target, disk.tree.link? location = some target) ∨
    ".." ∉ root.way ∧ ∀ location, disk.tree.get? location = none →
      ∀ below, disk.tree.link? (location ++ below) = none

namespace Grounded

theorem of_entry (hplain : disk.IsPlain root) (hentry : disk.entry root = .ok .directory) :
    disk.Grounded root := by
  refine ⟨hplain, Or.inl ?_⟩
  rintro path location hbegins habsolute ⟨names, name, hway, hup, rfl⟩
  obtain ⟨place, hplace, hdirectory⟩ := place_of_entry hentry
  unfold Disk.place FileTree.place at hplace
  split at hplace
  · cases hplace
  · split at hplace
    · cases hplace
    · -- the steps of the root come to the name after those that the names before it are left of
      obtain ⟨rest, hrest⟩ := hbegins
      rw [hway, List.append_assoc, List.singleton_append, Path.way_eq_filter] at hrest
      obtain ⟨before, ending, hsteps, hbefore, hending⟩ := List.filter_eq_append_iff.1 hrest.symm
      obtain ⟨idle, more, rfl, hidle, hname, -⟩ := List.filter_eq_cons_iff.1 hending
      have hnone : idle.filter (· ≠ ".") = [] := by simpa using hidle
      have hnames : (before ++ idle).filter (· ≠ ".") = names := by
        rw [List.filter_append, hbefore, hnone, List.append_nil]
      rw [hsteps, ← List.append_assoc] at hplace
      rw [FileTree.startOf_congr habsolute, ← hnames, FileTree.landing_filter]
      exact FileTree.met_of_walk hplace (by simpa using hname) hup hdirectory

theorem later (h : disk.Grounded root) (hhere : after.here = disk.here)
    (hlinks : ∀ place, after.tree.link? place = disk.tree.link? place)
    (hdirectories : ∀ place, disk.tree.get? place = some .directory →
      after.tree.get? place = some .directory)
    (hgone : ∀ place, after.tree.get? place = none → disk.tree.get? place = none ∨
      ∃ below, place = disk.site root ++ below) : after.Grounded root := by
  constructor
  · intro below
    rw [hlinks, site, FileTree.landing_congr hlinks, hhere]
    exact h.plain below
  · refine h.stands.imp ?_ ?_
    · intro hstands path location hbegins habsolute hends
      rw [hlinks]
      exact (hstands path location hbegins habsolute (hends.congr hlinks hhere)).imp_left
        (hdirectories location)
    · rintro ⟨hup, hnone⟩
      refine ⟨hup, ?_⟩
      intro location hvacant below
      rw [hlinks]
      rcases hgone location hvacant with hbefore | ⟨above, rfl⟩
      · exact hnone location hbefore below
      · rw [List.append_assoc]
        exact h.plain _

/-- A directory that the root lies in does not come up below the root. -/
theorem not_below (h : disk.Grounded root) (hends : disk.EndsAt path location)
    (hbegins : path.way <+: root.way) (habsolute : path.isAbsolute = root.isAbsolute)
    (hnone : disk.tree.get? location = none) {below : Location} (hne : below ≠ []) :
    location ≠ disk.site root ++ below := by
  rcases h.stands with hstands | ⟨hup, hlinks⟩
  · rcases hstands path location hbegins habsolute hends with hdirectory | ⟨target, hlink⟩
    · rw [hnone] at hdirectory
      cases hdirectory
    · rw [link?_of_none hnone] at hlink
      cases hlink
  · -- the root lies as deep below the place as it has names after those of the path
    have hsite : location = disk.site path := hends.site_eq (link?_of_none hnone)
    obtain ⟨rest, hrest⟩ := hbegins
    have hnames : ∀ part ∈ rest, IsName part := by
      intro part hpart
      have hmem : part ∈ root.way := by simp [← hrest, hpart]
      exact Path.isName_of_mem_way hmem fun hsame => hup (hsame ▸ hmem)
    have hroot : disk.site root = location ++ rest := by
      rw [site_eq_landing, ← hrest, ← FileTree.startOf_congr habsolute, hsite, site_eq_landing]
      refine FileTree.landing_names hnames fun below _ _ => ?_
      rw [← site_eq_landing, ← hsite]
      exact hlinks location hnone below
    intro hsame
    rw [hroot, List.append_assoc, List.self_eq_append_right] at hsame
    exact hne (List.append_eq_nil_iff.1 hsame).2

end Grounded

/-- A directory that is made for a file does not come up below the root, or it is one that the file lies in. -/
theorem Makes.below_root (h : disk.Grounded root) (hpath : path.Descends)
    (hmakes : disk.Makes (root.join path) location) (hnone : disk.tree.get? location = none) :
    (∀ below, below ≠ [] → location ≠ disk.site root ++ below) ∨
      ∃ below, below <+: path.way ∧ below ≠ path.way ∧ location = disk.site root ++ below := by
  obtain ⟨parent, hparent, above, hmem, hends⟩ := hmakes
  obtain ⟨within, last, hpathWay, hwithin, hlast⟩ := hpath.exists_way
  have hwhole : (root.join path).way = root.way ++ within ++ [last] := by
    rw [Path.way_join hpath.relative, hpathWay, List.append_assoc]
  obtain ⟨-, found, hfound, hparentWay, hparentAbsolute⟩ := Path.parent?_of_way hwhole hlast.ne_up
  obtain rfl : parent = found := Option.some.inj (hparent.symm.trans hfound)
  obtain ⟨hbegins, habsolute⟩ := Path.way_of_mem_ancestors hmem
  rw [hparentWay] at hbegins
  rw [hparentAbsolute, Path.isAbsolute_join hpath.relative] at habsolute
  rcases List.prefix_or_prefix_of_prefix hbegins (List.prefix_append root.way within) with hroot | hroot
  · left
    intro below hbelow
    exact h.not_below hends hroot habsolute hnone hbelow
  · -- a directory below the root: it has the names that the path begins with
    right
    obtain ⟨below, hbelow⟩ := hroot
    rw [← hbelow, List.prefix_append_right_inj] at hbegins
    refine ⟨below, ?_, ?_, ?_⟩
    · rw [hpathWay]
      exact hbegins.trans (List.prefix_append within [last])
    · rintro rfl
      have hlength := hbegins.length_le
      rw [hpathWay, List.length_append, List.length_singleton] at hlength
      omega
    · rw [hends.site_eq (link?_of_none hnone)]
      exact landing_of_way h.plain (fun part hpart => hwithin part (hbegins.subset hpart)) hbelow.symm habsolute

end Openings

end Disk

end EntityForge
