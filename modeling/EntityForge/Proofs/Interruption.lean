import EntityForge.Proofs.Completion
import EntityForge.Proofs.Frame

/-!
What a delivery that fails leaves on the disk.

The files before the one that fails have been delivered, and nothing has been done for those after it. The one
that fails has left no more than directories that it was to lie in and the temporary file beside it. Files to be
edited by hand come first, so if one of them fails then nothing else that was there has been touched. Main
statements: `writeEach_failure`, `spares_writeEach` and `delivery_interrupted`.
-/

namespace EntityForge

/-- A directory to which files can be delivered: there are no links below it, and it is there, or it can be made
without stepping up and there are no links below what is missing. A root that steps up out of a missing directory
is none: making that directory may put it in the place of a file. -/
structure Disk.Receives (disk : Disk) (root : Path) : Prop where
  plain : disk.IsPlain root
  stands : disk.entry root = .ok .directory ∨
    ".." ∉ root.parts ∧ ∀ location, disk.tree.get? location = none →
      ∀ below, disk.tree.link? (location ++ below) = none

theorem Disk.Receives.grounded {disk : Disk} {root : Path} (h : disk.Receives root) : disk.Grounded root := by
  rcases h.stands with hentry | ⟨hup, hlinks⟩
  · exact .of_entry h.plain hentry
  · exact ⟨h.plain, Or.inr ⟨fun hmem => hup (List.mem_filter.1 hmem).1, hlinks⟩⟩

namespace Destination

open Delivery Disk Artifact

variable {destination : Destination} {disk : Disk} {artifact failing : Artifact}
  {artifacts before after : List Artifact} {root path : Path} {location site : Location}

section Order

/-- What the order of delivery begins with is in that order itself: some files to be edited by hand, and then
some to be overwritten. -/
theorem exists_of_prefix_order (h : before <+: order artifacts) :
    ∃ edited overwritten, before = edited ++ overwritten ∧
      (∀ a ∈ edited, a.policy = .skipIfExists) ∧ ∀ a ∈ overwritten, a.policy = .overwrite := by
  have hedited : ∀ a ∈ artifacts.filter (fun a => a.policy = .skipIfExists), a.policy = .skipIfExists := by
    simp
  have hoverwritten : ∀ a ∈ artifacts.filter (fun a => a.policy = .overwrite), a.policy = .overwrite := by
    simp
  rcases List.prefix_or_prefix_of_prefix h (List.prefix_append _ _) with hbegins | ⟨rest, rfl⟩
  · exact ⟨before, [], by simp, fun a ha => hedited a (hbegins.subset ha), by simp⟩
  · have hrest := (List.prefix_append_right_inj _).1 h
    exact ⟨_, rest, rfl, hedited, fun a ha => hoverwritten a (hrest.subset ha)⟩

theorem order_of_prefix (h : before <+: order artifacts) : order before = before := by
  obtain ⟨edited, overwritten, rfl, hedited, hoverwritten⟩ := exists_of_prefix_order h
  have hkeep : edited.filter (fun a => a.policy = .skipIfExists) = edited := by
    simpa [List.filter_eq_self] using hedited
  have hkeepMore : overwritten.filter (fun a => a.policy = .overwrite) = overwritten := by
    simpa [List.filter_eq_self] using hoverwritten
  have hdrop : edited.filter (fun a => a.policy = .overwrite) = [] := by
    simpa [List.filter_eq_nil_iff] using fun a ha => by rw [hedited a ha]; decide
  have hdropMore : overwritten.filter (fun a => a.policy = .skipIfExists) = [] := by
    simpa [List.filter_eq_nil_iff] using fun a ha => by rw [hoverwritten a ha]; decide
  simp only [order, List.filter_append, hkeep, hkeepMore, hdrop, hdropMore, List.append_nil, List.nil_append]

/-- Only files to be edited by hand come before one of them. -/
theorem edited_before (h : order artifacts = before ++ failing :: after) (hpolicy : failing.policy = .skipIfExists) :
    ∀ a ∈ before ++ [failing], a.policy = .skipIfExists := by
  have hprefix : before ++ [failing] <+: order artifacts := ⟨after, by rw [h]; simp⟩
  obtain ⟨edited, overwritten, hsplit, hedited, hoverwritten⟩ := exists_of_prefix_order hprefix
  rcases List.eq_nil_or_concat overwritten with rfl | ⟨others, last, rfl⟩
  · rw [List.append_nil] at hsplit
    rwa [hsplit]
  · rw [List.concat_eq_append, ← List.append_assoc] at hsplit
    obtain ⟨-, rfl⟩ := List.append_singleton_inj.1 hsplit
    have hother := hoverwritten failing (by simp)
    rw [hpolicy] at hother
    cases hother

end Order

/-- A delivery that fails has delivered all files before the one that fails, and goes no further. -/
theorem writeEach_failure {failure : DeliveryError}
    (h : ((destination.writeEach artifacts).run disk).1.failure? = some failure) :
    ∃ before failing after delivered between, artifacts = before ++ failing :: after ∧
      delivered.map Prod.fst = before ∧ (destination.writeEach before).run disk = (⟨delivered, none⟩, between) ∧
      (played (destination.write failing) between).1 = .error failure ∧
      (destination.writeEach artifacts).run disk =
        (⟨delivered, some failure⟩, (played (destination.write failing) between).2) := by
  induction artifacts generalizing disk with
  | nil => cases h
  | cons artifact artifacts ih =>
    rw [run_writeEach] at h ⊢
    rcases hplayed : played (destination.write artifact) disk with ⟨found | outcome, later⟩ <;>
      rw [hplayed] at h
    · obtain rfl : found = failure := Option.some.inj h
      exact ⟨[], artifact, artifacts, [], disk, rfl, rfl, rfl, by rw [hplayed], by rw [hplayed]⟩
    · obtain ⟨before, failing, after, delivered, between, rfl, hfst, hbefore, hfailing, hrun⟩ := ih h
      refine ⟨artifact :: before, failing, after, (artifact, outcome) :: delivered, between, rfl, ?_, ?_,
        hfailing, ?_⟩
      · rw [List.map_cons, hfst]
      · rw [run_writeEach, hplayed]
        dsimp only
        rw [hbefore]
      · dsimp only
        rw [hrun]

/-- A path under a root without links ends at the place that it has below the place of the root. -/
theorem endsAt_join (hplain : disk.IsPlain root) (hpath : path.Descends)
    (h : disk.EndsAt (root.join path) location) : location = disk.site root ++ path.way := by
  obtain ⟨names, name, hway, -, rfl⟩ := h
  obtain ⟨within, last, hpathWay, hwithin, -⟩ := hpath.exists_way
  rw [Path.way_join hpath.relative, hpathWay, ← List.append_assoc] at hway
  obtain ⟨rfl, rfl⟩ := List.append_singleton_inj.1 hway
  have hlanding : disk.tree.landing FileTree.linkLimit (FileTree.startOf root disk.here) (root.way ++ within) =
      disk.site root ++ within := by
    rw [site_eq_landing]
    refine FileTree.landing_names hwithin fun below _ _ => ?_
    rw [← site_eq_landing]
    exact hplain below
  rw [startOf_join hpath.relative, hlanding, hpathWay, List.append_assoc]

/-- What a single file changes, whatever comes of it. -/
theorem spares_write (hplain : disk.IsPlain destination.root) (hpath : artifact.path.Descends) :
    let place := artifact.place (disk.site destination.root)
    Spares (disk.Makes (destination.root.join artifact.path))
      (Marks (beside place) place (played (destination.write artifact) disk).1) disk
      (played (destination.write artifact) disk).2 := by
  intro place
  obtain ⟨names, name, hway, -, -⟩ := hpath.exists_way
  have hplace : place = disk.site destination.root ++ names ++ [name] := by
    rw [List.append_assoc, ← hway]
    rfl
  have hbeside : beside place = disk.site destination.root ++ (names ++ ["." ++ name ++ ".tmp"]) := by
    rw [hplace, beside_concat, List.append_assoc]
  have hne : place ≠ beside place := (beside_ne (by simp [hplace])).symm
  unfold Destination.write
  dsimp only
  split
  · exact Spares.refl disk
  rw [played_bind]
  have hopens := opens_makeParent disk (destination.root.join artifact.path)
  generalize played (makeParent (destination.root.join artifact.path)) disk = made at hopens ⊢
  obtain ⟨fault | done, opened⟩ := made
  · exact hopens.spares
  dsimp only at hopens ⊢
  have hchanges : Changes (fun _ => False) (fun _ => False) disk opened := hopens.spares.changes
  have hstaging : opened.Leads (staging (destination.root.join artifact.path)) (beside place) := by
    rw [hbeside]
    exact (leads_staging hplain hpath hway).later hchanges
  have hends (location : Location) (h : opened.EndsAt (destination.root.join artifact.path) location) :
      location = place := endsAt_join hplain hpath (h.congr hopens.link? hopens.here)
  have hlink : opened.tree.link? place = none := by
    rw [hopens.link?]
    exact hplain _
  cases artifact.policy with
  | skipIfExists => exact hopens.spares.trans (spares_writeNew hstaging hends artifact.contents)
  | overwrite => exact hopens.spares.trans (spares_replace hstaging hends artifact.contents hlink hne)

/-- The places at which a delivery may change what is there: those of the files and of their temporary files. -/
def Changed (site : Location) (artifacts : List Artifact) (location : Location) : Prop :=
  ∃ a ∈ artifacts, location = a.place site ∨ location = beside (a.place site)

theorem spares_more {more : List Artifact} {first last : Disk} (hmore : ∀ a ∈ artifacts, a ∈ more)
    (h : Spares (Opened site artifacts) (Changed site artifacts) first last) :
    Spares (Opened site more) (Changed site more) first last := by
  refine h.mono ?_ ?_
  · rintro location - (hroot | ⟨a, ha, hbelow⟩)
    · exact Or.inl hroot
    · exact Or.inr ⟨a, hmore a ha, hbelow⟩
  · rintro location ⟨a, ha, hplace⟩
    exact ⟨a, hmore a ha, hplace⟩

/-- The temporary file of a file below a place is below that place. -/
theorem exists_of_changed (hdescends : ∀ a ∈ artifacts, a.path.Descends) (h : Changed site artifacts location) :
    ∃ below, location = site ++ below := by
  obtain ⟨a, ha, rfl | rfl⟩ := h
  · exact ⟨_, rfl⟩
  · obtain ⟨names, name, hway, -⟩ := (hdescends a ha).exists_way
    exact ⟨names ++ ["." ++ name ++ ".tmp"], by
      rw [Artifact.place, hway, ← List.append_assoc, beside_concat, List.append_assoc]⟩

theorem spares_write_below (hroot : disk.Grounded destination.root) (hsite : disk.site destination.root = site)
    (hpath : artifact.path.Descends) :
    Spares (Opened site [artifact]) (Changed site [artifact]) disk (played (destination.write artifact) disk).2 := by
  refine (spares_write hroot.plain hpath).mono ?_ ?_
  · intro location hnone hmakes
    refine (hmakes.below_root hroot hpath hnone).imp ?_ ?_
    · rw [hsite]
      exact id
    · rw [hsite]
      exact fun hbelow => ⟨artifact, List.mem_singleton_self _, hbelow⟩
  · rw [hsite]
    rintro location (htemporary | ⟨hplace, -⟩)
    · exact ⟨artifact, List.mem_singleton_self _, Or.inr htemporary⟩
    · exact ⟨artifact, List.mem_singleton_self _, Or.inl hplace⟩

/-- What a delivery changes, whatever comes of it. -/
theorem spares_writeEach (hroot : disk.Grounded destination.root) (hsite : disk.site destination.root = site)
    (hdescends : ∀ a ∈ artifacts, a.path.Descends) :
    Spares (Opened site artifacts) (Changed site artifacts) disk ((destination.writeEach artifacts).run disk).2 := by
  induction artifacts generalizing disk with
  | nil => exact Spares.refl disk
  | cons artifact artifacts ih =>
    obtain ⟨hpath, hrest⟩ := List.forall_mem_cons.1 hdescends
    have hfirst : ∀ a ∈ [artifact], a ∈ artifact :: artifacts := by simp
    have hwrite := spares_write_below hroot hsite hpath
    rw [run_writeEach]
    generalize played (destination.write artifact) disk = written at hwrite ⊢
    obtain ⟨failure | outcome, later⟩ := written <;> dsimp only at hwrite ⊢
    · exact spares_more hfirst hwrite
    · have hlater : later.Grounded destination.root := by
        refine hwrite.grounded hroot fun location hchanged => ?_
        rw [hsite]
        exact exists_of_changed (by simpa using hpath) hchanged
      have hlaterSite : later.site destination.root = site := (hwrite.changes.site _).trans hsite
      exact (spares_more hfirst hwrite).trans
        (spares_more (fun _ => List.mem_cons_of_mem artifact) (ih hlater hlaterSite hrest))

/-- A path that none of some files lies at or below, and that no temporary file has, is left alone by a delivery of
those files, with all that lies below it. -/
theorem unchanged_of_spares {all : List Artifact} (hall : Regular all) {first last : Disk}
    (hmem : ∀ b ∈ artifacts, b ∈ all) (hspares : Spares (Opened site artifacts) (Changed site artifacts) first last)
    (ha : artifact ∈ all) (hapart : ∀ b ∈ artifacts, ¬artifact.path.components <+: b.path.components)
    (below : Location) :
    last.tree.get? (artifact.place site ++ below) = first.tree.get? (artifact.place site ++ below) := by
  have hway (b : Artifact) (hb : b ∈ artifacts) : ¬artifact.path.way <+: b.path.way := by
    intro hbegins
    apply hapart b hb
    rw [(hall.descends artifact ha).components_eq_map, (hall.descends b (hmem b hb)).components_eq_map]
    exact hbegins.map _
  have hplace : artifact.place site ++ below = site ++ (artifact.path.way ++ below) := List.append_assoc ..
  have huntouched : ¬Changed site artifacts (artifact.place site ++ below) := by
    rintro ⟨b, hb, hsame | hsame⟩
    · rw [hplace] at hsame
      exact hway b hb ⟨below, List.append_cancel_left hsame⟩
    · obtain ⟨names, name, hbWay, hname, -, hbeside⟩ := hall.place_eq (hmem b hb) site
      rw [hplace, hbeside, List.append_assoc] at hsame
      have hnames := List.append_cancel_left hsame
      rcases List.eq_nil_or_concat below with rfl | ⟨between, last, rfl⟩
      · rw [List.append_nil] at hnames
        exact hall.lasting artifact ha names name hname hnames
      · rw [List.concat_eq_append, ← List.append_assoc] at hnames
        obtain ⟨hnames, -⟩ := List.append_singleton_inj.1 hnames
        apply hway b hb
        rw [hbWay, ← hnames, List.append_assoc]
        exact List.prefix_append _ _
  rcases hspares.others _ huntouched with hsame | ⟨-, -, hroot | ⟨b, hb, within, hbegins, -, hwithin⟩⟩
  · exact hsame
  · refine absurd hplace (hroot _ ?_)
    exact List.append_ne_nil_of_left_ne_nil (hall.descends artifact ha).way_ne_nil below
  · rw [hplace] at hwithin
    rw [← List.append_cancel_left hwithin] at hbegins
    exact absurd ((List.prefix_append _ below).trans hbegins) (hway b hb)

section Failed

variable {between : Disk} (hbetween : between.Grounded destination.root)
  (hsite : between.site destination.root = site) (hpath : failing.path.Descends)

include hbetween hsite hpath

/-- A file that has failed has left no more than directories and a temporary file. -/
theorem others_of_failed {failure : DeliveryError}
    (hfailing : (played (destination.write failing) between).1 = .error failure)
    (htemporary : location ≠ beside (failing.place site)) :
    let later := (played (destination.write failing) between).2
    later.tree.get? location = between.tree.get? location ∨
      between.tree.get? location = none ∧ later.tree.get? location = some .directory ∧
        between.Above (destination.root.join failing.path) location := by
  intro later
  have hwrite := spares_write hbetween.plain hpath
  dsimp only at hwrite
  rw [hsite, hfailing] at hwrite
  have huntouched : ¬Marks (beside (failing.place site)) (failing.place site) (.error failure) location := by
    rintro (hsame | ⟨-, outcome, hdone⟩)
    · exact htemporary hsame
    · cases hdone
  refine (hwrite.others location huntouched).imp_right ?_
  rintro ⟨hnone, hdirectory, hmakes⟩
  exact ⟨hnone, hdirectory, hmakes.above hnone⟩

/-- What the files before it have left alone and it does not lie in is left alone in the end. -/
theorem unchanged_of_failed {all : List Artifact} (hall : Regular all) (hmem : ∀ a ∈ before ++ [failing], a ∈ all)
    (hfirst : Spares (Opened site before) (Changed site before) disk between) (ha : artifact ∈ all)
    (hapart : ∀ b ∈ before ++ [failing], ¬artifact.path.components <+: b.path.components) (below : Location) :
    (played (destination.write failing) between).2.tree.get? (artifact.place site ++ below) =
      disk.tree.get? (artifact.place site ++ below) := by
  have hlast := spares_write_below hbetween hsite hpath
  have hwhole := (spares_more (fun _ => List.mem_append_left [failing]) hfirst).trans
    (spares_more (fun _ => List.mem_append_right before) hlast)
  exact unchanged_of_spares hall hmem hwhole ha hapart below

end Failed

end Destination

open Artifact

/-- What a delivery leaves behind that fails: which files come before the one that fails, and what the disk is like
after those. -/
structure Interrupted (destination : Destination) (artifacts : List Artifact) (disk : Disk)
    (report : DeliveryReport) (later : Disk) (before : List Artifact) (failing : Artifact) (between : Disk) :
    Prop where
  /-- Files to be edited by hand come first, and otherwise the order is that of the list. -/
  order : before ++ [failing] <+: artifacts.filter (fun a => a.policy = .skipIfExists) ++
    artifacts.filter (fun a => a.policy = .overwrite)
  /-- The files before have been delivered, just as without those that come after them. -/
  applied : (destination.writeAll before).run disk = (⟨report.delivered, none⟩, between)
  delivered : report.delivered.map Prod.fst = before
  failed : ∃ failure, report.failure? = some failure ∧
    (Delivery.played (destination.write failing) between).1 = .error failure
  /-- Since then, nothing has changed but the temporary file, and directories that the file was to lie in. -/
  others : ∀ location, location ≠ beside (failing.place (disk.site destination.root)) →
    later.tree.get? location = between.tree.get? location ∨
      between.tree.get? location = none ∧ later.tree.get? location = some .directory ∧
        between.Above (destination.root.join failing.path) location
  /-- Where a file to be edited by hand has failed, every path is as it was, with all below it, that is only to be
  overwritten and in which no file to be edited by hand lies. -/
  untouched : failing.policy = .skipIfExists → ∀ a ∈ artifacts,
    (∀ b ∈ artifacts, b.policy = .skipIfExists → ¬a.path.components <+: b.path.components) →
    ∀ below, later.tree.get? (a.place (disk.site destination.root) ++ below) =
      disk.tree.get? (a.place (disk.site destination.root) ++ below)

/-- A delivery that fails has delivered some of the files, in the order of delivery, and has left nothing else but
directories and one temporary file. -/
theorem delivery_interrupted {destination : Destination} {artifacts : List Artifact} (hregular : Regular artifacts)
    {disk : Disk} (hroot : disk.Receives destination.root) {failure : DeliveryError}
    (hfailed : ((destination.writeAll artifacts).run disk).1.failure? = some failure) :
    ∃ before failing between, Interrupted destination artifacts disk
      ((destination.writeAll artifacts).run disk).1 ((destination.writeAll artifacts).run disk).2 before failing
      between := by
  have hgrounded := hroot.grounded
  unfold Destination.writeAll at hfailed
  obtain ⟨before, failing, after, delivered, between, horder, hdelivered, hbefore, hfailing, hrun⟩ :=
    Destination.writeEach_failure hfailed
  have hprefix : before <+: Destination.order artifacts := ⟨failing :: after, horder.symm⟩
  have hmem (a : Artifact) (ha : a ∈ before ++ [failing]) : a ∈ artifacts := by
    rw [← Destination.mem_order, horder]
    have hsplit : before ++ failing :: after = before ++ [failing] ++ after := by simp
    rw [hsplit]
    exact List.mem_append_left after ha
  have hdescends (a : Artifact) (ha : a ∈ before) : a.path.Descends :=
    hregular.descends a (hmem a (List.mem_append_left _ ha))
  have hpath : failing.path.Descends := hregular.descends failing (hmem failing (by simp))
  have hfirst := Destination.spares_writeEach hgrounded rfl hdescends
  rw [hbefore] at hfirst
  have hbetween : between.Grounded destination.root :=
    hfirst.grounded hgrounded fun _ => Destination.exists_of_changed hdescends
  have hsite : between.site destination.root = disk.site destination.root := hfirst.changes.site _
  refine ⟨before, failing, between, ?_⟩
  rw [Destination.writeAll, hrun]
  constructor
  · exact ⟨after, by rw [← Destination.order, horder]; simp⟩
  · rw [Destination.writeAll, Destination.order_of_prefix hprefix, hbefore]
  · exact hdelivered
  · exact ⟨failure, rfl, hfailing⟩
  · intro location htemporary
    exact Destination.others_of_failed hbetween hsite hpath hfailing htemporary
  · intro hpolicy a ha hapart below
    have hedited := Destination.edited_before horder hpolicy
    exact Destination.unchanged_of_failed hbetween hsite hpath hregular hmem hfirst ha
      (fun b hb => hapart b (hmem b hb) (hedited b hb)) below

/-- A file that another one is to lie in, a file that is there already, and the directory that they are in. -/
def obstructed : Disk where
  tree := ⟨[(["out"], .directory), (["out", "pets"], .file "no directory"), (["out", "all.ts"], .file "old")]⟩
  here := []

/-- Two files to be edited by hand, and one to be overwritten. -/
def blocked : List Artifact := [
  ⟨⟨"all.ts"⟩, "new", .overwrite⟩, ⟨⟨"notes.ts"⟩, "notes", .skipIfExists⟩,
  ⟨⟨"pets/pet.ts"⟩, "pet", .skipIfExists⟩]

theorem delivery_interrupted_for_blocked :
    Regular blocked ∧ obstructed.Receives ⟨"out"⟩ ∧
      ((Destination.writeAll ⟨⟨"out"⟩, false⟩ blocked).run obstructed).1.failure? =
        some ⟨⟨"out/pets"⟩, .alreadyExists⟩ ∧
      ∃ before failing between, Interrupted ⟨⟨"out"⟩, false⟩ blocked obstructed
        ((Destination.writeAll ⟨⟨"out"⟩, false⟩ blocked).run obstructed).1
        ((Destination.writeAll ⟨⟨"out"⟩, false⟩ blocked).run obstructed).2 before failing between := by
  have hproper : ∀ a ∈ blocked, a.path.IsProper := by decide
  have hlast : ∀ a ∈ blocked, ∀ part ∈ a.path.way, part.toList.getLast? ≠ some 'p' := by decide
  have hregular : Regular blocked := by
    refine ⟨fun a ha => (hproper a ha).descends, ?_⟩
    intro a ha names name _ hway
    apply hlast a ha ("." ++ name ++ ".tmp") (by simp [hway])
    rw [String.toList_append, List.getLast?_append]
    rfl
  have hroot : obstructed.Receives ⟨"out"⟩ := by
    refine ⟨Disk.isPlain_of_entries (by decide) _, Or.inl (by decide +kernel)⟩
  have hfailed : ((Destination.writeAll ⟨⟨"out"⟩, false⟩ blocked).run obstructed).1.failure? =
      some ⟨⟨"out/pets"⟩, .alreadyExists⟩ := by
    decide +kernel
  exact ⟨hregular, hroot, hfailed, delivery_interrupted hregular hroot hfailed⟩

end EntityForge
