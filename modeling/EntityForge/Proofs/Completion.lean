import EntityForge.Proofs.Effect

/-!
What a delivery that does not fail leaves on a disk without links.

A file is delivered to its place, and on the way to it no place changes but that of its temporary file. As
long as no file lies within another one and none is called like a temporary file, no two files get into each
other's way, unless they have the same path: what stands at a place in the end is what its own files have
made of it, one after the other. What is overwritten is a file in the end and lies in directories, so that
none of it lies within another file. Main statements: `settles_of_writeEach`, `Settles.get?_place`,
`Settles.others`, `Settles.apart_of_overwritten` and `delivery_completes`.
-/

namespace EntityForge

namespace Artifact

/-- Files that each lead down from the root, to a name that no temporary file has. -/
structure Regular (artifacts : List Artifact) : Prop where
  descends : ∀ a ∈ artifacts, a.path.Descends
  lasting : ∀ a ∈ artifacts, ∀ names name, name ≠ "" → a.path.way ≠ names ++ ["." ++ name ++ ".tmp"]

/-- Files that each lead down from the root, and in whose paths there is no name of a temporary file. -/
structure Durable (artifacts : List Artifact) : Prop where
  descends : ∀ a ∈ artifacts, a.path.Descends
  lasting : ∀ a ∈ artifacts, ∀ name, name ≠ "" →
    Path.Component.name ("." ++ name ++ ".tmp") ∉ a.path.components

/-- Files that can be delivered together: each leads down from the root, none has a name of a temporary file
anywhere in its path, and none lies within another one. -/
structure Orderly (artifacts : List Artifact) : Prop where
  descends : ∀ a ∈ artifacts, a.path.Descends
  lasting : ∀ a ∈ artifacts, ∀ name, name ≠ "" →
    Path.Component.name ("." ++ name ++ ".tmp") ∉ a.path.components
  apart : ∀ a ∈ artifacts, ∀ b ∈ artifacts, a.path.components <+: b.path.components →
    a.path.components = b.path.components

/-- The place of a file below a place. -/
def place (site : Location) (artifact : Artifact) : Location := site ++ artifact.path.way

/-- A temporary file is told by its last letter. -/
theorem lasting_of_getLast? {a : Artifact} (hdescends : a.path.Descends)
    (h : ∀ part ∈ a.path.way, part.toList.getLast? ≠ some 'p') (name : String) :
    Path.Component.name ("." ++ name ++ ".tmp") ∉ a.path.components := by
  rw [hdescends.components_eq_map, List.mem_map]
  rintro ⟨part, hpart, hname⟩
  apply h part hpart
  rw [Path.Component.name.inj hname, String.toList_append, List.getLast?_append]
  rfl

variable {all : List Artifact} {a b : Artifact}

theorem Durable.not_temporary (h : Durable all) (ha : a ∈ all) {name : String} (hname : name ≠ "") :
    "." ++ name ++ ".tmp" ∉ a.path.way := by
  intro hmem
  apply h.lasting a ha name hname
  rw [(h.descends a ha).components_eq_map]
  exact List.mem_map_of_mem hmem

theorem Durable.regular (h : Durable all) : Regular all where
  descends := h.descends
  lasting a ha names name hname hway := h.not_temporary ha hname (by simp [hway])

theorem Orderly.durable (h : Orderly all) : Durable all := ⟨h.descends, h.lasting⟩

theorem Orderly.not_temporary (h : Orderly all) (ha : a ∈ all) {name : String} (hname : name ≠ "") :
    "." ++ name ++ ".tmp" ∉ a.path.way :=
  h.durable.not_temporary ha hname

theorem Orderly.regular (h : Orderly all) : Regular all := h.durable.regular

namespace Regular

/-- The place of a file, by its last name. -/
theorem place_eq (h : Regular all) (ha : a ∈ all) (site : Location) :
    ∃ names name, a.path.way = names ++ [name] ∧ name ≠ "" ∧ a.place site = site ++ names ++ [name] ∧
      beside (a.place site) = site ++ names ++ ["." ++ name ++ ".tmp"] := by
  obtain ⟨names, name, hway, -, hname⟩ := (h.descends a ha).exists_way
  have hplace : a.place site = site ++ names ++ [name] := by rw [place, hway, List.append_assoc]
  exact ⟨names, name, hway, hname.ne_empty, hplace, by rw [hplace, beside_concat]⟩

theorem place_eq_iff (h : Regular all) (ha : a ∈ all) (hb : b ∈ all) (site : Location) :
    a.place site = b.place site ↔ a.path.components = b.path.components := by
  rw [(h.descends a ha).way_inj (h.descends b hb), place, place, List.append_cancel_left_eq]

theorem place_ne_beside (h : Regular all) (ha : a ∈ all) (hb : b ∈ all) (site : Location) :
    a.place site ≠ beside (b.place site) := by
  obtain ⟨names, name, -, hname, -, hbeside⟩ := h.place_eq hb site
  intro hsame
  rw [hbeside, List.append_assoc] at hsame
  exact h.lasting a ha names name hname (List.append_cancel_left hsame)

end Regular

end Artifact

namespace Disk

/-- A root from which nothing that is made for a file can get in the way of another one. Where it steps up,
the directories have to be there that it goes through; else making them might put one in the place of
a file. -/
structure Firm (disk : Disk) (root : Path) : Prop where
  linkless : disk.tree.Linkless
  stands : ".." ∈ root.parts → ∀ names name, names ++ [name] <+: root.way → name ≠ ".." →
    disk.tree.get? (FileTree.reach (FileTree.startOf root disk.here) names ++ [name]) = some .directory

variable {disk after : Disk} {root : Path}

theorem firm_of_entry (h : disk.tree.Linkless)
    (hroot : ".." ∈ root.parts → disk.entry root = .ok .directory) : disk.Firm root := by
  refine ⟨h, ?_⟩
  intro hup names name hbegins hname
  obtain ⟨place, hplace, hentry⟩ := place_of_entry (hroot hup)
  obtain ⟨rest, hway⟩ := hbegins
  cases rest with
  | nil =>
    rw [List.append_nil] at hway
    obtain ⟨-, hthere, -⟩ := place_of_way h hway.symm hname hplace
    rw [← site_of_way h hway.symm hname, ← hthere, hentry]
  | cons next rest =>
    have hwhole : root.way = names ++ name :: next :: rest := by rw [← hway]; simp
    exact directory_of_place h hwhole (List.cons_ne_nil next rest) hname hplace

theorem Firm.keep (h : disk.Firm root) (hlinks : after.tree.Linkless) (hhere : after.here = disk.here)
    (hdirectories : ∀ location, disk.tree.get? location = some .directory →
      after.tree.get? location = some .directory) : after.Firm root := by
  refine ⟨hlinks, ?_⟩
  intro hup names name hbegins hname
  rw [hhere]
  exact hdirectories _ (h.stands hup names name hbegins hname)

open Artifact

theorem Firm.grounded (h : disk.Firm root) : disk.Grounded root := by
  refine ⟨fun below => h.linkless _, ?_⟩
  by_cases hup : ".." ∈ root.parts
  · left
    rintro path location hbegins habsolute ⟨names, name, hway, hname, rfl⟩
    left
    rw [FileTree.landing_of_linkless h.linkless, FileTree.startOf_congr habsolute]
    exact h.stands hup names name (hway ▸ hbegins) hname
  · right
    refine ⟨fun hmem => hup (List.mem_filter.1 hmem).1, ?_⟩
    intro location _ below
    exact h.linkless _

end Disk

namespace Destination

open Artifact

/-- The places where directories may come up in a delivery: not below the root, or where some file is to lie. -/
def Opened (site : Location) (artifacts : List Artifact) (location : Location) : Prop :=
  (∀ below, below ≠ [] → location ≠ site ++ below) ∨
    ∃ a ∈ artifacts, ∃ below, below <+: a.path.way ∧ below ≠ a.path.way ∧ location = site ++ below

end Destination

/-- A place where no file and no temporary file belongs. -/
def Artifact.Clear (site : Location) (all : List Artifact) (location : Location) : Prop :=
  ∀ a ∈ all, location ≠ a.place site ∧ location ≠ beside (a.place site)

namespace Destination.Opened

open Artifact

variable {site location : Location} {artifacts all : List Artifact} {b : Artifact}
  (h : Opened site artifacts location) (hmem : ∀ a ∈ artifacts, a ∈ all) (hb : b ∈ all)

include h hmem

section Single

include hb

/-- No directory comes up in the place of a file that no file lies within. -/
theorem ne_place (hall : Regular all)
    (hapart : ∀ a ∈ artifacts, b.path.components <+: a.path.components → b.path.components = a.path.components) :
    location ≠ b.place site := by
  rcases h with hroot | ⟨a, ha, below, hbegins, hshort, rfl⟩
  · exact hroot b.path.way (hall.descends b hb).way_ne_nil
  · intro hsame
    obtain rfl : below = b.path.way := List.append_cancel_left hsame
    apply hshort
    rw [← (hall.descends b hb).way_inj (hall.descends a (hmem a ha))]
    apply hapart a ha
    rw [(hall.descends b hb).components_eq_map, (hall.descends a (hmem a ha)).components_eq_map]
    exact hbegins.map _

/-- None comes up in the place of a temporary file, if no file has such a name in its path. -/
theorem ne_beside (hall : Durable all) : location ≠ beside (b.place site) := by
  obtain ⟨names, name, -, hname, -, hbeside⟩ := hall.regular.place_eq hb site
  rw [hbeside, List.append_assoc]
  rcases h with hroot | ⟨a, ha, below, hbegins, -, rfl⟩
  · exact hroot _ (by simp)
  · intro hsame
    apply hall.not_temporary (hmem a ha) hname
    apply hbegins.subset
    rw [List.append_cancel_left hsame]
    simp

end Single

/-- No directory that is made for a file comes up in the way of another one. -/
theorem clear (hall : Orderly all) : Clear site all location := by
  intro b hb
  constructor
  · exact h.ne_place hmem hb hall.regular fun a ha => hall.apart b hb a (hmem a ha)
  · exact h.ne_beside hmem hb hall.durable

end Destination.Opened

namespace Destination

variable {destination : Destination} {disk later : Disk} {a : Artifact} {location : Location}

/-- A place where a directory may come up when a single file is delivered. -/
structure Encloses (destination : Destination) (disk : Disk) (a : Artifact) (location : Location) : Prop where
  above : disk.Above (destination.root.join a.path) location
  opened : Opened (disk.site destination.root) [a] location

/-- A directory that is made for a file does not lie below the root, or it is one that the file lies in. -/
theorem encloses_of_above (h : disk.Firm destination.root) (ha : a.path.Descends)
    (habove : disk.Above (destination.root.join a.path) location) (hnone : disk.tree.get? location = none) :
    destination.Encloses disk a location := by
  refine ⟨habove, ((habove.makes h.linkless).below_root h.grounded ha hnone).imp_right ?_⟩
  exact fun hbelow => ⟨a, List.mem_singleton_self a, hbelow⟩

theorem Encloses.congr (h : destination.Encloses later a location)
    (hsite : ∀ path, later.site path = disk.site path) : destination.Encloses disk a location := by
  obtain ⟨⟨parent, hparent, path, hpath, hends, hlocation⟩, hopened⟩ := h
  rw [hsite] at hlocation hopened
  exact ⟨⟨parent, hparent, path, hpath, hends, hlocation⟩, hopened⟩

end Destination

/-- A delivery as a whole, one file after the other: first directories are opened, at certain places, and then
the file takes effect. -/
inductive Settles (site : Location) (above : Artifact → Location → Prop) :
    Disk → List (Artifact × Outcome) → Disk → Prop where
  | nil (disk : Disk) : Settles site above disk [] disk
  | cons {artifact : Artifact} {outcome : Outcome} {rest : List (Artifact × Outcome)}
      {before opened after last : Disk} (opens : before.Opens (above artifact) opened)
      (effect : Effect artifact (artifact.place site) (beside (artifact.place site)) opened.tree.get?
        after.tree.get? outcome)
      /- What is overwritten lies in directories. -/
      (within : artifact.policy = .overwrite → ∀ below, below ≠ [] → below <+: artifact.path.way →
        below ≠ artifact.path.way → opened.tree.get? (site ++ below) = some .directory)
      (tail : Settles site above after rest last) :
      Settles site above before ((artifact, outcome) :: rest) last

theorem Settles.mono {site : Location} {above more : Artifact → Location → Prop} {first last : Disk}
    {delivered : List (Artifact × Outcome)} (h : Settles site above first delivered last)
    (hmore : ∀ a location, above a location → more a location) : Settles site more first delivered last := by
  induction h with
  | nil disk => exact .nil disk
  | cons opens effect within tail ih =>
    exact .cons (opens.mono fun location _ => hmore _ location) effect within ih

namespace Destination

open Delivery Disk Artifact

variable {destination : Destination} {artifacts : List Artifact} {disk : Disk}

theorem settles_of_writeEach (hreal : destination.dryRun = false)
    (hdescends : ∀ a ∈ artifacts, a.path.Descends) {site : Location} (hfirm : disk.Firm destination.root)
    (hsite : disk.site destination.root = site)
    (hdone : ((destination.writeEach artifacts).run disk).1.failure? = none) :
    ((destination.writeEach artifacts).run disk).1.delivered.map Prod.fst = artifacts ∧
      Settles site (destination.Encloses disk) disk ((destination.writeEach artifacts).run disk).1.delivered
        ((destination.writeEach artifacts).run disk).2 := by
  induction artifacts generalizing disk with
  | nil => exact ⟨rfl, .nil disk⟩
  | cons a rest ih =>
    obtain ⟨ha, hrest⟩ := List.forall_mem_cons.1 hdescends
    have heffect (outcome : Outcome) (h : (played (destination.write a) disk).1 = .ok outcome) :=
      effect_of_write hfirm.linkless hreal ha h
    rw [run_writeEach] at hdone ⊢
    rcases hplayed : played (destination.write a) disk with ⟨failure | outcome, later⟩ <;>
      rw [hplayed] at hdone heffect
    · cases hdone
    · obtain ⟨hhere, opened, hopens, heffect, hstaged⟩ := heffect outcome rfl
      rw [site_join hfirm.linkless ha, hsite] at heffect
      have hlinks : opened.tree.Linkless := hopens.linkless hfirm.linkless
      have hlater : later.tree.Linkless := heffect.linkless hlinks
      have hkeep : later.Firm destination.root := by
        refine hfirm.keep hlater hhere ?_
        intro location hdirectory
        exact heffect.directory (hopens.kept hdirectory)
      have hsame (path : Path) : later.site path = disk.site path :=
        site_congr hfirm.linkless hlater hhere path
      have hopenedSite : opened.site destination.root = site := by
        rw [site_congr hfirm.linkless hlinks hopens.here, hsite]
      obtain ⟨hfst, hsettles⟩ := ih hrest hkeep (by rw [hsame, hsite]) hdone
      have htail := hsettles.mono fun _ _ hencloses => hencloses.congr hsame
      refine ⟨congrArg (a :: ·) hfst, .cons (hopens.mono ?_) heffect ?_ htail⟩
      · exact fun location hnone habove => encloses_of_above hfirm ha habove hnone
      · intro hpolicy below hne hbegins hshort
        obtain ⟨follow, place, hplace⟩ := hstaged hpolicy
        rw [← hopenedSite]
        exact directory_of_staging hlinks ha hplace hne hbegins hshort

theorem mem_of_delivered {delivered : List (Artifact × Outcome)}
    (horder : delivered.map Prod.fst = order artifacts) {d : Artifact × Outcome} (hd : d ∈ delivered) :
    d.1 ∈ artifacts := by
  rw [← mem_order, ← horder]
  exact List.mem_map_of_mem hd

end Destination

theorem Artifact.settle_ne_none (occupant? : Option Entry) (a : Artifact) : a.settle occupant? ≠ none := by
  unfold settle
  split
  · cases occupant? <;> simp
  · simp

/-- What files to be edited by hand make of a place: what is there stays, and else the first of them comes. -/
theorem Artifact.foldl_settle {artifacts : List Artifact}
    (hskip : ∀ a ∈ artifacts, a.policy = .skipIfExists) {occupant? : Option Entry} (hthere : occupant? ≠ none) :
    artifacts.foldl settle occupant? = occupant? := by
  induction artifacts with
  | nil => rfl
  | cons a rest ih =>
    obtain ⟨ha, hrest⟩ := List.forall_mem_cons.1 hskip
    obtain ⟨entry, rfl⟩ := Option.ne_none_iff_exists'.1 hthere
    have hstays : a.settle (some entry) = some entry := by
      rw [settle, ha]
      rfl
    rw [List.foldl_cons, hstays]
    exact ih hrest

namespace Artifact

variable {before after : List Artifact} {a : Artifact}

/-- What is overwritten last stays. -/
theorem foldl_settle_of_last (hpolicy : a.policy = .overwrite)
    (hlast : ∀ b ∈ after, b.policy = .overwrite → b.path.components ≠ a.path.components)
    (occupant? : Option Entry) :
    ((Destination.order (before ++ a :: after)).filter fun b => b.path.isSame a.path).foldl settle
      occupant? = some (.file a.contents) := by
  have hself : a.path.isSame a.path = true := beq_self_eq_true _
  have hrest : (after.filter fun b => b.policy = .overwrite).filter (fun b => b.path.isSame a.path) = [] := by
    rw [List.filter_eq_nil_iff]
    intro b hb hsame
    obtain ⟨hmem, hoverwrite⟩ := List.mem_filter.1 hb
    exact hlast b hmem (by simpa using hoverwrite) (by simpa [Path.isSame] using hsame)
  have hsettle (occupant? : Option Entry) : a.settle occupant? = some (.file a.contents) := by
    rw [settle, hpolicy]
  simp only [Destination.order, List.filter_append, List.filter_cons, hpolicy, decide_true, if_true, hself,
    hrest, List.foldl_append, List.foldl_cons, List.foldl_nil, hsettle]

/-- What is only to be edited by hand is what it was, or what comes first. -/
theorem foldl_settle_of_first
    (hskip : ∀ b ∈ before ++ a :: after, b.path.components = a.path.components → b.policy = .skipIfExists)
    (hfirst : ∀ b ∈ before, b.path.components ≠ a.path.components) (occupant? : Option Entry) :
    ((Destination.order (before ++ a :: after)).filter fun b => b.path.isSame a.path).foldl settle
      occupant? = match occupant? with
        | some entry => some entry
        | none => some (.file a.contents) := by
  have hself : a.path.isSame a.path = true := beq_self_eq_true _
  have hpolicy : a.policy = .skipIfExists := hskip a (by simp) rfl
  have hbefore : (before.filter fun b => b.policy = .skipIfExists).filter
      (fun b => b.path.isSame a.path) = [] := by
    rw [List.filter_eq_nil_iff]
    intro b hb hsame
    exact hfirst b (List.mem_filter.1 hb).1 (by simpa [Path.isSame] using hsame)
  have hoverwrite : ((before ++ a :: after).filter fun b => b.policy = .overwrite).filter
      (fun b => b.path.isSame a.path) = [] := by
    rw [List.filter_eq_nil_iff]
    intro b hb hsame
    obtain ⟨hmem, hpolicy⟩ := List.mem_filter.1 hb
    have hedited := hskip b hmem (by simpa [Path.isSame] using hsame)
    rw [hedited] at hpolicy
    simp at hpolicy
  have hsettle : a.settle occupant? = match occupant? with
      | some entry => some entry
      | none => some (.file a.contents) := by
    rw [settle, hpolicy]
    cases occupant? <;> rfl
  rw [Destination.order, List.filter_append, hoverwrite, List.append_nil, List.filter_append,
    List.filter_append, hbefore, List.nil_append, List.filter_cons, if_pos (by simpa using hpolicy),
    List.filter_cons, if_pos hself, List.foldl_cons, ← hsettle]
  apply foldl_settle
  · intro b hb
    simpa using (List.mem_filter.1 (List.mem_filter.1 hb).1).2
  · exact settle_ne_none _ _

end Artifact

namespace Settles

open Artifact

variable {site : Location} {all : List Artifact} {above : Artifact → Location → Prop}
  {first last : Disk} {delivered : List (Artifact × Outcome)} {a b : Artifact}

section Step

variable (hall : Regular all) (ha : a ∈ all) (hb : b ∈ all) {before opened after : Disk} {outcome : Outcome}
  (opens : before.Opens (above a) opened)
  (effect : Effect a (a.place site) (beside (a.place site)) opened.tree.get? after.tree.get? outcome)

include hall ha opens effect

theorem step_outcome (hclear : ¬above a (a.place site)) : outcome ≠ .planned ∧
    (outcome = .written ↔ a.policy = .overwrite ∨ before.tree.get? (a.place site) = none) := by
  rw [← opens.elsewhere hclear]
  exact (effect.at_place (hall.place_ne_beside ha ha site)).2

include hb

/-- A single file, seen from the place of any file: either it is delivered there or nothing happens there. -/
theorem step_place (hclear : ¬above a (b.place site)) :
    after.tree.get? (b.place site) =
      if a.path.isSame b.path then a.settle (before.tree.get? (b.place site))
      else before.tree.get? (b.place site) := by
  rw [← opens.elsewhere hclear, Path.isSame]
  by_cases hpath : a.path.components = b.path.components
  · rw [if_pos (by simpa using hpath), ← (hall.place_eq_iff ha hb site).2 hpath]
    exact (effect.at_place (hall.place_ne_beside ha ha site)).1
  · rw [if_neg (by simpa using hpath)]
    apply effect.other
    · intro hsame
      exact hpath ((hall.place_eq_iff ha hb site).1 hsame.symm)
    · exact hall.place_ne_beside hb ha site

/-- The same from the place of any temporary file. -/
theorem step_temporary (hclear : ¬above a (beside (b.place site))) :
    after.tree.get? (beside (b.place site)) = before.tree.get? (beside (b.place site)) ∨
      after.tree.get? (beside (b.place site)) = none := by
  rw [← opens.elsewhere hclear]
  by_cases hplace : beside (b.place site) = beside (a.place site)
  · rw [hplace]
    exact (effect.at_temporary (hall.place_ne_beside ha ha site)).1
  · exact Or.inl (effect.other (hall.place_ne_beside ha hb site).symm hplace)

end Step

/-- What stands at the place of a file in the end is what the files with its path have made of it, one after
the other. -/
theorem get?_place (h : Settles site above first delivered last) (hall : Regular all)
    (hclear : ∀ a ∈ all, ∀ b ∈ all, ¬above a (b.place site)) (hmem : ∀ d ∈ delivered, d.1 ∈ all)
    (hb : b ∈ all) :
    last.tree.get? (b.place site) =
      ((delivered.map Prod.fst).filter fun a => a.path.isSame b.path).foldl settle
        (first.tree.get? (b.place site)) := by
  induction h with
  | nil disk => rfl
  | @cons a outcome rest before opened after last opens effect within tail ih =>
    obtain ⟨ha, hrest⟩ := List.forall_mem_cons.1 hmem
    rw [ih hrest, step_place hall ha hb opens effect (hclear a ha b hb), List.map_cons, List.filter_cons]
    split <;> rfl

/-- A file is reported to be written if it is to be overwritten, or if nothing was at its place and no file with
its path has come before it. -/
theorem outcome_iff {before after : List (Artifact × Outcome)} {outcome : Outcome}
    (h : Settles site above first (before ++ (a, outcome) :: after) last) (hall : Regular all)
    (hclear : ∀ a ∈ all, ∀ b ∈ all, ¬above a (b.place site))
    (hmem : ∀ d ∈ before ++ (a, outcome) :: after, d.1 ∈ all) :
    outcome ≠ .planned ∧ (outcome = .written ↔ a.policy = .overwrite ∨
      first.tree.get? (a.place site) = none ∧
        ∀ d ∈ before, d.1.path.components ≠ a.path.components) := by
  have ha : a ∈ all := hmem (a, outcome) (by simp)
  induction before generalizing first with
  | nil =>
    cases h with
    | cons opens effect within tail => simpa using step_outcome hall ha opens effect (hclear a ha a ha)
  | cons entry before ih =>
    obtain ⟨hearlier, hrest⟩ := List.forall_mem_cons.1 hmem
    cases h with
    | @cons earlier came rest first opened between last opens effect within tail =>
      obtain ⟨hplanned, hwritten⟩ := ih tail hrest
      refine ⟨hplanned, ?_⟩
      rw [hwritten, step_place hall hearlier ha opens effect (hclear _ hearlier a ha),
        List.forall_mem_cons, Path.isSame]
      -- a file that comes to the place leaves something there
      by_cases hsame : earlier.path.components = a.path.components
      · rw [if_pos (by simpa using hsame)]
        simp [settle_ne_none, hsame]
      · rw [if_neg (by simpa using hsame)]
        simp [hsame]

/-- Where there is no temporary file, none comes up. -/
theorem vacant_temporary (h : Settles site above first delivered last) (hall : Regular all)
    (hclear : ∀ a ∈ all, ¬above a (beside (b.place site))) (hmem : ∀ d ∈ delivered, d.1 ∈ all) (hb : b ∈ all)
    (hnone : first.tree.get? (beside (b.place site)) = none) : last.tree.get? (beside (b.place site)) = none := by
  induction h with
  | nil disk => exact hnone
  | @cons a outcome rest before opened after last opens effect within tail ih =>
    obtain ⟨ha, hrest⟩ := List.forall_mem_cons.1 hmem
    apply ih hrest
    rcases step_temporary hall ha hb opens effect (hclear a ha) with hsame | hgone
    · rw [hsame, hnone]
    · exact hgone

/-- No temporary file is left of one that has been written. -/
theorem temporary_of_written {artifact : Artifact} (h : Settles site above first delivered last)
    (hall : Regular all) (hclear : ∀ a ∈ all, ∀ b ∈ all, ¬above a (beside (b.place site)))
    (hmem : ∀ d ∈ delivered, d.1 ∈ all) (hwritten : (artifact, Outcome.written) ∈ delivered) :
    last.tree.get? (beside (artifact.place site)) = none := by
  have hartifact : artifact ∈ all := hmem _ hwritten
  induction h with
  | nil disk => cases hwritten
  | cons opens effect within tail ih =>
    obtain ⟨ha, hrest⟩ := List.forall_mem_cons.1 hmem
    rcases List.mem_cons.1 hwritten with heq | hwritten
    · cases heq
      refine tail.vacant_temporary hall (fun a ha => hclear a ha _ hartifact) hrest hartifact ?_
      exact (effect.at_temporary (hall.place_ne_beside ha ha site)).2.1 rfl
    · exact ih hrest hwritten

/-- All other places are as they were, unless a directory has been made that a file lies in. -/
theorem others {location : Location} (h : Settles site above first delivered last)
    (hall : Regular all) (hmem : ∀ d ∈ delivered, d.1 ∈ all)
    (hplace : ∀ d ∈ delivered, location ≠ d.1.place site)
    (htemporary : ∀ d ∈ delivered, location = beside (d.1.place site) →
      d.2 ≠ .written ∧ d.1.path.endsInSlash = false) :
    last.tree.get? location = first.tree.get? location ∨
      first.tree.get? location = none ∧ last.tree.get? location = some .directory ∧
        ∃ d ∈ delivered, above d.1 location := by
  induction h with
  | nil disk => exact Or.inl rfl
  | @cons a outcome rest before opened after last opens effect within tail ih =>
    obtain ⟨ha, hrest⟩ := List.forall_mem_cons.1 hmem
    obtain ⟨haplace, hplace⟩ := List.forall_mem_cons.1 hplace
    obtain ⟨hatemporary, htemporary⟩ := List.forall_mem_cons.1 htemporary
    have hstep : after.tree.get? location = opened.tree.get? location := by
      by_cases hbeside : location = beside (a.place site)
      · obtain ⟨hskipped, hopen⟩ := hatemporary hbeside
        rw [hbeside]
        exact (effect.at_temporary (hall.place_ne_beside ha ha site)).2.2 hskipped hopen
      · exact effect.other haplace hbeside
    rcases ih hrest hplace htemporary with hlast | ⟨hnone, hdirectory, d, hd, hd'⟩
    · rw [hlast, hstep]
      rcases opens.others location with hsame | ⟨hvacant, hmade, habove⟩
      · exact Or.inl hsame
      · exact Or.inr ⟨hvacant, hmade, (a, outcome), List.mem_cons_self, habove⟩
    · rw [hstep] at hnone
      rcases opens.others location with hsame | ⟨-, hmade, -⟩
      · exact Or.inr ⟨hsame ▸ hnone, hdirectory, d, List.mem_cons_of_mem _ hd, hd'⟩
      · rw [hmade] at hnone
        cases hnone

/-- A file that is at none of the places has been there before. -/
theorem file_before {location : Location} {contents : String} (h : Settles site above first delivered last)
    (hall : Regular all) (hmem : ∀ d ∈ delivered, d.1 ∈ all)
    (hplace : ∀ d ∈ delivered, location ≠ d.1.place site)
    (hfile : last.tree.get? location = some (.file contents)) :
    first.tree.get? location = some (.file contents) := by
  induction h with
  | nil disk => exact hfile
  | @cons a outcome rest before opened after last opens effect within tail ih =>
    obtain ⟨ha, hrest⟩ := List.forall_mem_cons.1 hmem
    obtain ⟨haplace, hplace⟩ := List.forall_mem_cons.1 hplace
    have hafter := ih hrest hplace hfile
    have hopened : opened.tree.get? location = some (.file contents) := by
      by_cases hbeside : location = beside (a.place site)
      · rcases (effect.at_temporary (hall.place_ne_beside ha ha site)).1 with hsame | hgone
        · rw [hbeside, ← hsame, ← hbeside, hafter]
        · rw [hbeside, hgone] at hafter
          cases hafter
      · rw [← effect.other haplace hbeside, hafter]
    rcases opens.others location with hsame | ⟨-, hmade, -⟩
    · rw [← hsame, hopened]
    · rw [hmade] at hopened
      cases hopened

theorem directory {location : Location} (h : Settles site above first delivered last)
    (hdirectory : first.tree.get? location = some .directory) :
    last.tree.get? location = some .directory := by
  induction h with
  | nil disk => exact hdirectory
  | cons opens effect within tail ih => exact ih (effect.directory (opens.kept hdirectory))

/-- At the place of a file a file stays a file, though maybe with other contents. -/
theorem file_place {contents : String} (h : Settles site above first delivered last) (hall : Regular all)
    (hmem : ∀ d ∈ delivered, d.1 ∈ all) (hb : b ∈ all)
    (hfile : first.tree.get? (b.place site) = some (.file contents)) :
    ∃ contents, last.tree.get? (b.place site) = some (.file contents) := by
  induction h generalizing contents with
  | nil disk => exact ⟨contents, hfile⟩
  | @cons a outcome rest before opened after last opens effect within tail ih =>
    obtain ⟨ha, hrest⟩ := List.forall_mem_cons.1 hmem
    have hopened := opens.kept hfile
    by_cases hplace : b.place site = a.place site
    · have hsettled := (effect.at_place (hall.place_ne_beside ha ha site)).1
      rw [← hplace, hopened, settle] at hsettled
      split at hsettled
      · exact ih hrest hsettled
      · exact ih hrest hsettled
    · have hsame := effect.other hplace (hall.place_ne_beside hb ha site)
      exact ih hrest (hsame.trans hopened)

/-- What is overwritten is a file in the end, and lies in directories. -/
theorem of_overwritten (h : Settles site above first delivered last) (hall : Regular all)
    (hmem : ∀ d ∈ delivered, d.1 ∈ all) (ha : a ∈ delivered.map Prod.fst) (hpolicy : a.policy = .overwrite) :
    (∃ contents, last.tree.get? (a.place site) = some (.file contents)) ∧
      ∀ below, below ≠ [] → below <+: a.path.way → below ≠ a.path.way →
        last.tree.get? (site ++ below) = some .directory := by
  induction h with
  | nil disk => cases ha
  | @cons b outcome rest before opened after last opens effect within tail ih =>
    obtain ⟨hb, hrest⟩ := List.forall_mem_cons.1 hmem
    rcases List.mem_cons.1 ha with rfl | ha
    · constructor
      · have hsettled := (effect.at_place (hall.place_ne_beside hb hb site)).1
        rw [settle, hpolicy] at hsettled
        exact file_place tail hall hrest hb hsettled
      · intro below hne hbegins hshort
        exact tail.directory (effect.directory (within hpolicy below hne hbegins hshort))
    · exact ih hrest ha

/-- Nothing that is overwritten lies within a file that is. -/
theorem apart_of_overwritten (h : Settles site above first delivered last) (hall : Regular all)
    (hmem : ∀ d ∈ delivered, d.1 ∈ all) (ha : a ∈ delivered.map Prod.fst) (hb : b ∈ delivered.map Prod.fst)
    (haPolicy : a.policy = .overwrite) (hbPolicy : b.policy = .overwrite)
    (hbegins : a.path.components <+: b.path.components) : a.path.components = b.path.components := by
  have hdescends {d : Artifact} (hd : d ∈ delivered.map Prod.fst) : d.path.Descends := by
    obtain ⟨entry, hentry, rfl⟩ := List.mem_map.1 hd
    exact hall.descends entry.1 (hmem entry hentry)
  rw [(hdescends ha).way_inj (hdescends hb)]
  rw [(hdescends ha).components_eq_map, (hdescends hb).components_eq_map] at hbegins
  by_contra hne
  obtain ⟨contents, hfile⟩ := (of_overwritten h hall hmem ha haPolicy).1
  have hinjective : Function.Injective Path.Component.name := fun _ _ => Path.Component.name.inj
  have hdirectory := (of_overwritten h hall hmem hb hbPolicy).2 a.path.way (hdescends ha).way_ne_nil
    ((List.prefix_map_iff_of_injective hinjective).1 hbegins) hne
  rw [← place, hfile] at hdirectory
  cases hdirectory

end Settles

open Artifact

/-- What a delivery leaves behind that does not fail. -/
structure Completed (destination : Destination) (artifacts : List Artifact) (disk : Disk)
    (delivered : List (Artifact × Outcome)) (later : Disk) : Prop where
  /-- Every file is delivered once, those to be edited by hand first. -/
  order : delivered.map Prod.fst = artifacts.filter (fun a => a.policy = .skipIfExists) ++
    artifacts.filter (fun a => a.policy = .overwrite)
  /-- A file to be edited by hand is written if nothing was at its place, and if it is the first one there. -/
  outcome : ∀ before a outcome after, delivered = before ++ (a, outcome) :: after →
    outcome ≠ .planned ∧ (outcome = .written ↔ a.policy = .overwrite ∨
      disk.tree.get? (a.place (disk.site destination.root)) = none ∧
        ∀ d ∈ before, d.1.path.components ≠ a.path.components)
  /-- What is to be overwritten holds what comes last for its path. -/
  overwritten : ∀ before a after, artifacts = before ++ a :: after → a.policy = .overwrite →
    (∀ b ∈ after, b.policy = .overwrite → b.path.components ≠ a.path.components) →
    later.tree.get? (a.place (disk.site destination.root)) = some (.file a.contents)
  /-- What is only to be edited by hand is what it was, or what comes first for its path. -/
  edited : ∀ before a after, artifacts = before ++ a :: after →
    (∀ b ∈ artifacts, b.path.components = a.path.components → b.policy = .skipIfExists) →
    (∀ b ∈ before, b.path.components ≠ a.path.components) →
    later.tree.get? (a.place (disk.site destination.root)) =
      match disk.tree.get? (a.place (disk.site destination.root)) with
      | some entry => some entry
      | none => some (.file a.contents)
  /-- No temporary file is left beside a file that has been written. -/
  temporary : ∀ a, (a, Outcome.written) ∈ delivered →
    later.tree.get? (beside (a.place (disk.site destination.root))) = none
  /-- Everything else is what it was, unless it is a directory that has been made for a file. -/
  others : ∀ location, (∀ a ∈ artifacts, location ≠ a.place (disk.site destination.root)) →
    (∀ d ∈ delivered, location = beside (d.1.place (disk.site destination.root)) →
      d.2 ≠ .written ∧ d.1.path.endsInSlash = false) →
    later.tree.get? location = disk.tree.get? location ∨
      disk.tree.get? location = none ∧ later.tree.get? location = some .directory ∧
        ∃ a ∈ artifacts, disk.Above (destination.root.join a.path) location

/-- A delivery to a disk without links that does not fail leaves every file where it belongs and everything
else as it was. The root has to be there if it steps up. A temporary file that was there before is gone if
a file has been written beside it, or if a file to be edited by hand has been asked for beside it by a path
with a slash at the end. -/
theorem delivery_completes {destination : Destination} (hreal : destination.dryRun = false)
    {artifacts : List Artifact} (horderly : Orderly artifacts) {disk : Disk}
    (hlinks : disk.tree.Linkless)
    (hroot : ".." ∈ destination.root.parts → disk.entry destination.root = .ok .directory)
    (hdone : ((destination.writeAll artifacts).run disk).1.failure? = none) :
    Completed destination artifacts disk ((destination.writeAll artifacts).run disk).1.delivered
      ((destination.writeAll artifacts).run disk).2 := by
  have hfirm := Disk.firm_of_entry hlinks hroot
  have hregular := horderly.regular
  have hclear {a : Artifact} (ha : a ∈ artifacts) (location : Location)
      (h : destination.Encloses disk a location) : Clear (disk.site destination.root) artifacts location :=
    h.opened.clear (List.forall_mem_singleton.2 ha) horderly
  have hplaces : ∀ a ∈ artifacts, ∀ b ∈ artifacts,
      ¬destination.Encloses disk a (b.place (disk.site destination.root)) :=
    fun a ha b hb h => (hclear ha _ h b hb).1 rfl
  have htemporaries : ∀ a ∈ artifacts, ∀ b ∈ artifacts,
      ¬destination.Encloses disk a (beside (b.place (disk.site destination.root))) :=
    fun a ha b hb h => (hclear ha _ h b hb).2 rfl
  unfold Destination.writeAll at hdone ⊢
  obtain ⟨horder, hsettles⟩ := Destination.settles_of_writeEach hreal
    (fun a ha => horderly.descends a (Destination.mem_order.1 ha)) hfirm rfl hdone
  generalize (destination.writeEach (Destination.order artifacts)).run disk = result at *
  obtain ⟨⟨delivered, failure?⟩, later⟩ := result
  have hdelivered : ∀ d ∈ delivered, d.1 ∈ artifacts := fun d hd => Destination.mem_of_delivered horder hd
  have hplace {a : Artifact} (ha : a ∈ artifacts) :
      later.tree.get? (a.place (disk.site destination.root)) =
        ((Destination.order artifacts).filter fun b => b.path.isSame a.path).foldl settle
          (disk.tree.get? (a.place (disk.site destination.root))) := by
    rw [hsettles.get?_place hregular hplaces hdelivered ha, horder]
  constructor
  · exact horder
  · rintro before a outcome after hsplit
    dsimp only at hsettles hsplit
    rw [hsplit] at hsettles hdelivered
    exact hsettles.outcome_iff hregular hplaces hdelivered
  · intro before a after hsplit hpolicy hlast
    rw [hplace (by rw [hsplit]; simp), hsplit]
    exact foldl_settle_of_last hpolicy hlast _
  · intro before a after hsplit hskip hfirst
    rw [hplace (by rw [hsplit]; simp), hsplit]
    rw [hsplit] at hskip
    exact foldl_settle_of_first hskip hfirst _
  · intro a ha
    exact hsettles.temporary_of_written hregular htemporaries hdelivered ha
  · intro location haway htemporary
    refine (hsettles.others hregular hdelivered (fun d hd => haway d.1 (hdelivered d hd)) htemporary).imp_right ?_
    rintro ⟨hnone, hdirectory, d, hd, hencloses⟩
    exact ⟨hnone, hdirectory, d.1, hdelivered d hd, hencloses.above⟩

/-- Files to be edited by hand and files to be overwritten, two of each at one path. -/
def paired : List Artifact := [
  ⟨⟨"notes.ts"⟩, "first", .skipIfExists⟩, ⟨⟨"dto/note.ts"⟩, "old", .overwrite⟩,
  ⟨⟨"notes.ts"⟩, "second", .skipIfExists⟩, ⟨⟨"dto/note.ts"⟩, "new", .overwrite⟩]

theorem orderly_paired : Orderly paired where
  descends a ha := by
    have hproper : ∀ a ∈ paired, a.path.IsProper := by decide
    exact (hproper a ha).descends
  lasting a ha name _ := by
    have hproper : ∀ a ∈ paired, a.path.IsProper := by decide
    have hlast : ∀ a ∈ paired, ∀ part ∈ a.path.way, part.toList.getLast? ≠ some 'p' := by decide
    exact lasting_of_getLast? (hproper a ha).descends (hlast a ha) name
  apart := by decide

theorem delivery_completes_for_paired :
    Orderly paired ∧ Disk.empty.tree.Linkless ∧
      ((Destination.writeAll ⟨⟨"out"⟩, false⟩ paired).run .empty).1.failure? = none ∧
      Completed ⟨⟨"out"⟩, false⟩ paired .empty
        ((Destination.writeAll ⟨⟨"out"⟩, false⟩ paired).run .empty).1.delivered
        ((Destination.writeAll ⟨⟨"out"⟩, false⟩ paired).run .empty).2 := by
  have hlinks : Disk.empty.tree.Linkless := FileTree.link?_of_entries (by decide)
  have hdone : ((Destination.writeAll ⟨⟨"out"⟩, false⟩ paired).run .empty).1.failure? = none := by
    decide +kernel
  exact ⟨orderly_paired, hlinks, hdone,
    delivery_completes rfl orderly_paired hlinks (fun h => absurd h (by decide)) hdone⟩

/-- A file that is asked for with a slash at the end. -/
def slashed : Artifact := ⟨⟨"notes.ts/"⟩, "new", .skipIfExists⟩

/-- A file edited by hand, and a temporary file that an earlier run has left beside it. -/
def abandoned : Disk where
  tree := ⟨[
    (["out"], .directory),
    (["out", "notes.ts"], .file "edited by hand"),
    (["out", ".notes.ts.tmp"], .file "abandoned")]⟩
  here := []

theorem orderly_slashed : Orderly [slashed] where
  descends a ha := by
    rw [List.mem_singleton.1 ha]
    exact ⟨by decide, by decide, by decide, by decide⟩
  lasting a ha name _ := by
    rw [List.mem_singleton.1 ha]
    exact lasting_of_getLast? ⟨by decide, by decide, by decide, by decide⟩ (by decide) name
  apart := by decide

/-- No file is written, and yet a file is gone: the temporary one beside a path with a slash at the end. And where
the root steps up out of a directory that is not there yet, making that directory puts it in the place of the
file. -/
theorem delivery_disturbs_for_slashed :
    (Orderly [slashed] ∧ abandoned.tree.Linkless ∧
      let run := (Destination.writeAll ⟨⟨"out"⟩, false⟩ [slashed]).run abandoned
      run.1 = ⟨[(slashed, .skipped)], none⟩ ∧
        abandoned.tree.get? ["out", ".notes.ts.tmp"] = some (.file "abandoned") ∧
        run.2.tree.get? ["out", ".notes.ts.tmp"] = none) ∧
      let outside : Artifact := ⟨⟨"notes.ts"⟩, "new", .skipIfExists⟩
      let run := (Destination.writeAll ⟨⟨"out/notes.ts/.."⟩, false⟩ [outside]).run .empty
      run.1 = ⟨[(outside, .skipped)], none⟩ ∧ run.2.tree.get? ["out", "notes.ts"] = some .directory := by
  refine ⟨⟨orderly_slashed, FileTree.link?_of_entries (by decide), ?_⟩, ?_⟩
  · decide +kernel
  · decide +kernel

end EntityForge
