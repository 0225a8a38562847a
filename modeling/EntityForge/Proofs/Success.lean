import EntityForge.Proofs.Access
import EntityForge.Proofs.Completion
import Mathlib.Data.List.Induction

/-!
When a delivery does not fail.

Below a directory that is there, directories can be made wherever no file is in the way, and a file can then be
put in each of them. What is made for one file gets in the way of no other one, as long as no file lies
within another one and none is called like a temporary file. So nothing fails if nothing is in the way at the
start. Main statements: `run_makeDirectories_below`, `write_succeeds` and `delivery_succeeds`.
-/

namespace EntityForge

namespace Disk

section MakeDirectories

variable {disk : Disk} (h : disk.tree.Linkless) {path : Path} {location : Location}

include h

/-- Where all directories are there, none is made. -/
theorem run_makeDirectories_of_passes (hpasses : disk.Passes path location) (hsend : path.Sendable)
    (more : List Path) : (Session.makeDirectories (path :: more)).run disk = (.ok (), disk) := by
  rw [Session.makeDirectories]
  by_cases hnone : path.components.isEmpty = true
  · rw [if_pos hnone]
    rfl
  · have hne : path.text ≠ "" := by
      intro htext
      obtain rfl : path = ⟨""⟩ := by rw [Path.mk.injEq, htext]
      exact hnone (by decide)
    rw [if_neg hnone, Delivery.run_then, Delivery.run_send, hpasses.answer_makeDirectory h hsend hne]
    dsimp only
    exact Prod.ext (hpasses.run_settle h hsend hne _) (Delivery.run_settle path _ disk)

/-- Where only the last one is missing, it is made. -/
theorem run_makeDirectories_of_reaches (hpath : disk.Reaches path location)
    (hfree : disk.tree.get? location = none ∨ disk.tree.get? location = some .directory)
    (more : List Path) :
    let made := (Session.makeDirectories (path :: more)).run disk
    made.1 = .ok () ∧ made.2.Passes path location := by
  obtain ⟨names, name, above, hway, -⟩ := hpath.course
  rw [Session.makeDirectories, if_neg (by simp [Path.components_of_way hway]), Delivery.run_then,
    Delivery.run_send]
  obtain ⟨hreply, hpasses, hlinks⟩ := hpath.answer_makeDirectory h hfree
  generalize disk.answer (.makeDirectory path) = answered at *
  obtain ⟨reply, made⟩ := answered
  rcases hreply with rfl | rfl
  · exact ⟨rfl, hpasses⟩
  · dsimp only
    rw [Delivery.run_settle]
    exact ⟨hpasses.run_settle hlinks hpath.sendable hpath.text_ne_empty _, hpasses⟩

/-- Where the one that it lies in is missing, that one is made first. -/
theorem run_makeDirectories_of_missing (hsend : path.Sendable) (hends : path.EndsInWay)
    {names : List String} {name : String} (hway : path.way = names ++ [name])
    (hcourse : disk.tree.course (FileTree.startOf path disk.here) names = .error .notFound)
    {more : List Path} {made : Disk} (hmade : (Session.makeDirectories more).run disk = (.ok (), made))
    (hlinks : made.tree.Linkless) (hpath : made.Reaches path location)
    (hfree : made.tree.get? location = none ∨ made.tree.get? location = some .directory) :
    let last := (Session.makeDirectories (path :: more)).run disk
    last.1 = .ok () ∧ last.2.Passes path location := by
  rw [Session.makeDirectories, if_neg (by simp [Path.components_of_way hway]), Delivery.run_then,
    Delivery.run_send, answer_makeDirectory_of_missing h hsend hends hway hcourse]
  dsimp only
  rw [Delivery.run_then, hmade]
  dsimp only
  rw [Delivery.run_then, Delivery.run_send, Delivery.run_settle]
  obtain ⟨-, hpasses, hlastLinks⟩ := hpath.answer_makeDirectory hlinks hfree
  exact ⟨hpasses.run_settle hlastLinks hsend hpath.text_ne_empty _, hpasses⟩

/-- Directories are made below a root that is there, where no file is in the way. -/
theorem run_makeDirectories_below {root : Path} {site : Location} (hroot : disk.Passes root site)
    {names : List String} (hnames : ∀ name ∈ names, IsName name)
    (hshort : ∀ name ∈ names, name.utf8ByteSize ≤ FileTree.nameLimit)
    (hfree : ∀ above, above ≠ [] → above <+: names →
      disk.tree.get? (site ++ above) = none ∨ disk.tree.get? (site ++ above) = some .directory)
    (hway : path.way = root.way ++ names) (habsolute : path.isAbsolute = root.isAbsolute)
    (hends : path.EndsInWay) (hsend : path.Sendable) :
    let made := (Session.makeDirectories path.ancestors).run disk
    made.1 = .ok () ∧ made.2.Passes path (site ++ names) := by
  induction names using List.reverseRecOn generalizing path with
  | nil =>
    rw [List.append_nil] at hway ⊢
    have hpasses : disk.Passes path site := by
      rwa [Passes, FileTree.startOf_congr habsolute, hway]
    obtain ⟨more, hancestors⟩ : ∃ more, path.ancestors = path :: more := ⟨_, rfl⟩
    rw [hancestors, run_makeDirectories_of_passes h hpasses hsend]
    exact ⟨rfl, hpasses⟩
  | append_singleton names name ih =>
    obtain ⟨hnamesBefore, hname⟩ := List.forall_mem_append.1 hnames
    obtain ⟨hshortBefore, hnameShort⟩ := List.forall_mem_append.1 hshort
    rw [List.forall_mem_singleton] at hname hnameShort
    have hfreeBefore (above : Location) (hne : above ≠ []) (hbegins : above <+: names) :=
      hfree above hne (hbegins.trans (List.prefix_append names [name]))
    have hfreeLast := hfree (names ++ [name]) (by simp) List.prefix_rfl
    rw [← List.append_assoc] at hway hfreeLast ⊢
    obtain ⟨parent, hancestors, hparentWay, hparentAbsolute, hparentEnds⟩ := Path.ancestors_of_way hway
    rw [hancestors]
    have hcourse : disk.tree.course (FileTree.startOf path disk.here) (root.way ++ names) =
        disk.tree.course site names := by
      rw [FileTree.course_append, FileTree.startOf_congr habsolute, hroot]
    rcases FileTree.course_names hnamesBefore hshortBefore hfreeBefore with hthere | hmissing
    · rw [hthere] at hcourse
      have hpath : disk.Reaches path (site ++ names ++ [name]) :=
        ⟨hsend, hends, _, name, _, hway, hname, hnameShort, rfl, hcourse⟩
      exact run_makeDirectories_of_reaches h hpath hfreeLast _
    · rw [hmissing] at hcourse
      have hparentSend : parent.Sendable := hsend.ancestor (by simp [hancestors, parent.self_mem_ancestors])
      obtain ⟨hmade, hpasses⟩ := ih hnamesBefore hshortBefore hfreeBefore hparentWay
        (hparentAbsolute.trans habsolute) hparentEnds hparentSend
      have hopens := opens_makeDirectories disk parent.ancestors
      generalize hrun : (Session.makeDirectories parent.ancestors).run disk = made at *
      obtain ⟨reply, made⟩ := made
      dsimp only at hmade hpasses hopens
      rw [hmade] at hrun
      have hpath : made.Reaches path (site ++ names ++ [name]) := by
        refine ⟨hsend, hends, _, name, _, hway, hname, hnameShort, rfl, ?_⟩
        rw [← hparentWay, ← FileTree.startOf_congr hparentAbsolute]
        exact hpasses
      refine run_makeDirectories_of_missing h hsend hends hway hcourse hrun (hopens.linkless h) hpath ?_
      rcases hopens.others (site ++ names ++ [name]) with hsame | ⟨-, hdirectory, -⟩
      · rwa [hsame]
      · exact Or.inr hdirectory

end MakeDirectories

end Disk

namespace Delivery

open Disk

variable {disk : Disk} (h : disk.tree.Linkless) {target : Path} {place temporary : Location}
  (htarget : disk.Reaches target place) (hopen : target.endsInSlash = false)
  (hstaging : disk.Reaches (staging target) temporary) (hstagingOpen : (staging target).endsInSlash = false)
  (hne : place ≠ temporary) (hplace : disk.tree.get? place ≠ some .directory)
  (htemporary : disk.tree.get? temporary ≠ some .directory) (contents : String)

include h htarget hstaging hstagingOpen hne htemporary

/-- The contents are in the temporary file, and the place of the file is as it was. -/
theorem staged :
    let written := disk.answer (.write (staging target) contents)
    written.1 = .ok () ∧ written.2.tree.Linkless ∧ written.2.Reaches target place ∧
      written.2.Reaches (staging target) temporary ∧
      written.2.tree.get? temporary = some (.file contents) ∧
      written.2.tree.get? place = disk.tree.get? place := by
  obtain ⟨hreply, hturns⟩ := hstaging.answer_write h hstagingOpen htemporary contents
  exact ⟨hreply, hturns.linkless h rfl, htarget.turned h hturns htemporary rfl,
    hstaging.turned h hturns htemporary rfl, hturns.self, hturns.other hne⟩

include hopen hplace

theorem replace_succeeds : (played (replace target contents) disk).1 = .ok .written := by
  obtain ⟨hreply, hlinks, htargetLater, hstagingLater, hfile, hsame⟩ :=
    staged h htarget hstaging hstagingOpen hne htemporary contents
  have hrename := hstagingLater.answer_rename hlinks hstagingOpen htargetLater hopen hfile (by rwa [hsame])
  unfold replace
  rw [played_bind, played_orBlame, run_send, hreply]
  dsimp only [Except.mapError]
  rw [played_bind, played_orBlame, run_send, hrename]
  rfl

theorem writeNew_succeeds : ∃ outcome, (played (writeNew target contents) disk).1 = .ok outcome := by
  unfold writeNew
  rw [played_bind, played_session, htarget.exists?_eq h hopen hplace, run_exists?]
  dsimp only
  cases hentry : disk.tree.get? place with
  | some entry => exact ⟨.skipped, rfl⟩
  | none =>
    obtain ⟨hreply, hlinks, htargetLater, hstagingLater, hfile, hsame⟩ :=
      staged h htarget hstaging hstagingOpen hne htemporary contents
    have hlink :=
      hstagingLater.answer_link hlinks hstagingOpen htargetLater hopen hfile (hsame.trans hentry)
    refine ⟨.written, ?_⟩
    simp only [Option.isSome_none, Bool.false_eq_true, if_false]
    rw [played_bind, played_orBlame, run_send, hreply]
    dsimp only [Except.mapError]
    rw [played_send, hlink, played_send]
    rfl

end Delivery

/-- A file whose path under a root, and that of the temporary file beside it, may be asked for. -/
structure Artifact.Fits (root : Path) (artifact : Artifact) : Prop where
  proper : artifact.path.IsProper
  short : ∀ part ∈ artifact.path.parts, part.utf8ByteSize ≤ FileTree.nameLimit
  temporary : ∀ names name, artifact.path.parts = names ++ [name] →
    ("." ++ name ++ ".tmp").utf8ByteSize ≤ FileTree.nameLimit
  target : (root.join artifact.path).Sendable
  staging : (Delivery.staging (root.join artifact.path)).Sendable

/-- A disk on which nothing is in the way of a file: no file in the place of a directory it lies in, and no
directory in its place or in that of its temporary file. -/
structure Disk.Admits (disk : Disk) (site : Location) (artifact : Artifact) : Prop where
  within : ∀ below, below ≠ [] → below <+: artifact.path.way → below ≠ artifact.path.way →
    disk.tree.get? (site ++ below) = none ∨ disk.tree.get? (site ++ below) = some .directory
  place : disk.tree.get? (artifact.place site) ≠ some .directory
  temporary : disk.tree.get? (beside (artifact.place site)) ≠ some .directory

namespace Destination

open Delivery Disk Artifact

variable {destination : Destination} (hreal : destination.dryRun = false) {all : List Artifact}
  (horderly : Orderly all) {a b : Artifact} (ha : a ∈ all) {disk : Disk}
  (hfirm : disk.Firm destination.root) {site : Location} (hsite : disk.site destination.root = site)

section Admits

include horderly ha

include hfirm hsite in
/-- The directories that are made for one file are in the way of no other one. -/
theorem admits_of_opens {opened : Disk} (hopens : disk.Opens (disk.Above (destination.root.join a.path)) opened)
    (hb : b ∈ all) (hadmits : disk.Admits site b) : opened.Admits site b := by
  have hclear (location : Location) (hnone : disk.tree.get? location = none)
      (habove : disk.Above (destination.root.join a.path) location) : Clear site all location := by
    have hencloses := encloses_of_above hfirm (horderly.descends a ha) habove hnone
    exact hsite ▸ hencloses.opened.clear (List.forall_mem_singleton.2 ha) horderly
  constructor
  · intro below hne hbegins hshort
    rcases hopens.others (site ++ below) with hsame | ⟨-, hdirectory, -⟩
    · rw [hsame]
      exact hadmits.within below hne hbegins hshort
    · exact Or.inr hdirectory
  · rcases hopens.others (b.place site) with hsame | ⟨hnone, -, habove⟩
    · rw [hsame]
      exact hadmits.place
    · exact absurd rfl (hclear _ hnone habove b hb).1
  · rcases hopens.others (beside (b.place site)) with hsame | ⟨hnone, -, habove⟩
    · rw [hsame]
      exact hadmits.temporary
    · exact absurd rfl (hclear _ hnone habove b hb).2

/-- And neither is the file itself. -/
theorem admits_of_effect {opened later : Disk} {outcome : Outcome}
    (heffect : Effect a (a.place site) (beside (a.place site)) opened.tree.get? later.tree.get? outcome)
    (hb : b ∈ all) (hadmits : opened.Admits site b) : later.Admits site b := by
  have hregular := horderly.regular
  have hne := hregular.place_ne_beside ha ha site
  constructor
  · intro below hbelow hbegins hshort
    -- no directory of one file is the place of another one, or that of its temporary file
    have hopened : Opened site [b] (site ++ below) :=
      Or.inr ⟨b, List.mem_singleton_self b, below, hbegins, hshort, rfl⟩
    obtain ⟨hplace, htemporary⟩ := hopened.clear (List.forall_mem_singleton.2 hb) horderly a ha
    rw [heffect.other hplace htemporary]
    exact hadmits.within below hbelow hbegins hshort
  · by_cases hsame : b.place site = a.place site
    · rw [hsame, (heffect.at_place hne).1, settle]
      have hfree := hsame ▸ hadmits.place
      cases a.policy with
      | overwrite => simp
      | skipIfExists =>
        cases hentry : opened.tree.get? (a.place site) with
        | none => simp
        | some entry => simpa [hentry] using hfree
    · rw [heffect.other hsame (hregular.place_ne_beside hb ha site)]
      exact hadmits.place
  · by_cases hsame : beside (b.place site) = beside (a.place site)
    · rcases (heffect.at_temporary hne).1 with hkept | hgone
      · rw [hsame, hkept, ← hsame]
        exact hadmits.temporary
      · rw [hsame, hgone]
        simp
    · rw [heffect.other (hregular.place_ne_beside ha hb site).symm hsame]
      exact hadmits.temporary

end Admits

section Target

variable {root : Path} (hfits : a.Fits root) {names : List String} {name : String}
  (hparts : a.path.parts = names ++ [name])

include hfits hparts

/-- Where the directories are there, the place of a file and that of its temporary file are reached. -/
theorem reaches_of_course
    (hcourse : disk.tree.course (FileTree.startOf root disk.here) (root.way ++ names) =
      .ok (site ++ names, none)) :
    disk.Reaches (root.join a.path) (a.place site) ∧
      disk.Reaches (staging (root.join a.path)) (beside (a.place site)) := by
  have hproper := hfits.proper
  have hrelative := hproper.isAbsolute_eq
  have hmem : name ∈ a.path.parts := by simp [hparts]
  have hname : IsName name := hproper name hmem
  have hway : (root.join a.path).way = root.way ++ names ++ [name] := by
    rw [Path.way_join hrelative, hproper.way_eq, hparts, List.append_assoc]
  have hplace : a.place site = site ++ names ++ [name] := by
    rw [Artifact.place, hproper.way_eq, hparts, List.append_assoc]
  obtain ⟨parent, hstaging, -⟩ := staging_eq hway hname.ne_up
  obtain ⟨hstagingWay, -, hstart⟩ := way_staging_join root hproper.descends (hproper.way_eq.trans hparts)
  obtain ⟨htemporary, -⟩ := isProper_temporary (Path.not_mem_of_mem_parts hmem)
  constructor
  · refine ⟨hfits.target, hproper.endsInWay_join root, _, name, _, hway, hname, hfits.short name hmem,
      hplace, ?_⟩
    rw [startOf_join hrelative]
    exact hcourse
  · refine ⟨hfits.staging, ?_, _, _, _, hstagingWay, isName_temporary name,
      hfits.temporary names name hparts, by rw [hplace, beside_concat], ?_⟩
    · rw [hstaging]
      exact htemporary.endsInWay_join parent
    · rw [hstart]
      exact hcourse

/-- The directories that a file lies in are made, where nothing is in the way of it. -/
theorem makeParent_succeeds (hlinks : disk.tree.Linkless) (hroot : disk.Passes root site)
    (hadmits : disk.Admits site a) :
    let made := played (makeParent (root.join a.path)) disk
    made.1 = .ok () ∧ made.2.tree.course (FileTree.startOf root made.2.here) (root.way ++ names) =
      .ok (site ++ names, none) := by
  have hproper := hfits.proper
  have hway : (root.join a.path).way = root.way ++ names ++ [name] := by
    rw [Path.way_join hproper.isAbsolute_eq, hproper.way_eq, hparts, List.append_assoc]
  obtain ⟨parent, hancestors, hparentWay, habsolute, hends⟩ := Path.ancestors_of_way hway
  rw [Path.isAbsolute_join hproper.isAbsolute_eq] at habsolute
  have hparent : (root.join a.path).parent? = some parent := by
    rw [Path.parent?, hancestors]
    rfl
  have hsend : parent.Sendable := hfits.target.ancestor (by simp [hancestors, parent.self_mem_ancestors])
  have hfree (above : Location) (hne : above ≠ []) (hbegins : above <+: names) :
      disk.tree.get? (site ++ above) = none ∨ disk.tree.get? (site ++ above) = some .directory := by
    have hwhole : a.path.way = names ++ [name] := hproper.way_eq.trans hparts
    refine hadmits.within above hne (hwhole ▸ hbegins.trans (List.prefix_append names [name])) ?_
    rintro rfl
    have hlength := hbegins.length_le
    rw [hwhole, List.length_append, List.length_singleton] at hlength
    omega
  obtain ⟨hmade, hpasses⟩ := run_makeDirectories_below hlinks hroot
    (fun part hpart => hproper part (by simp [hparts, hpart]))
    (fun part hpart => hfits.short part (by simp [hparts, hpart])) hfree hparentWay habsolute hends hsend
  unfold makeParent
  rw [hparent]
  dsimp only
  rw [played_orBlame]
  refine ⟨by rw [hmade]; rfl, ?_⟩
  rw [← hparentWay, ← FileTree.startOf_congr habsolute]
  exact hpasses

end Target

include hreal horderly hfirm hsite

include ha in
/-- A file is delivered where nothing is in the way of it. -/
theorem write_succeeds (hfits : a.Fits destination.root) (hroot : disk.Passes destination.root site)
    (hadmits : disk.Admits site a) : ∃ outcome, (played (destination.write a) disk).1 = .ok outcome := by
  have hproper := hfits.proper
  obtain ⟨names, name, hparts⟩ : ∃ names name, a.path.parts = names ++ [name] :=
    ⟨_, _, (List.dropLast_append_getLast a.path.parts_ne_nil).symm⟩
  obtain ⟨hmade, hcourse⟩ := makeParent_succeeds hfits hparts hfirm.linkless hroot hadmits
  have hopens := (opens_makeParent disk (destination.root.join a.path)).mono fun _ hnone hmakes =>
    hmakes.above hnone
  unfold Destination.write
  simp only [hreal, Bool.false_eq_true, if_false]
  rw [played_bind]
  generalize played (makeParent (destination.root.join a.path)) disk = made at *
  obtain ⟨reply, opened⟩ := made
  dsimp only at hmade hcourse hopens ⊢
  rw [hmade]
  dsimp only
  have hlinks := hopens.linkless hfirm.linkless
  have hlater := admits_of_opens horderly ha hfirm hsite hopens ha hadmits
  obtain ⟨htarget, hstaging⟩ := reaches_of_course hfits hparts hcourse
  have hopen : (destination.root.join a.path).endsInSlash = false := by
    rw [Path.endsInSlash_join hproper.isAbsolute_eq hproper.text_ne_empty, hproper.endsInSlash_eq]
  obtain ⟨-, hstagingOpen, -⟩ :=
    way_staging_join destination.root hproper.descends (hproper.way_eq.trans hparts)
  have hne := horderly.regular.place_ne_beside ha ha site
  cases a.policy with
  | skipIfExists =>
    exact writeNew_succeeds hlinks htarget hopen hstaging hstagingOpen hne hlater.place hlater.temporary _
  | overwrite =>
    exact ⟨_, replace_succeeds hlinks htarget hopen hstaging hstagingOpen hne hlater.place
      hlater.temporary _⟩

/-- Nothing fails where nothing is in the way of any file. -/
theorem writeEach_succeeds {artifacts : List Artifact} (hmem : ∀ a ∈ artifacts, a ∈ all)
    (hfits : ∀ a ∈ all, a.Fits destination.root) (hroot : disk.Passes destination.root site)
    (hadmits : ∀ a ∈ all, disk.Admits site a) :
    ((destination.writeEach artifacts).run disk).1.failure? = none := by
  induction artifacts generalizing disk with
  | nil => rfl
  | cons a rest ih =>
    obtain ⟨ha, hrest⟩ := List.forall_mem_cons.1 hmem
    obtain ⟨outcome, hdone⟩ :=
      write_succeeds hreal horderly ha hfirm hsite (hfits a ha) hroot (hadmits a ha)
    have hdescends := horderly.descends a ha
    obtain ⟨hhere, opened, hopens, heffect, -⟩ := effect_of_write hfirm.linkless hreal hdescends hdone
    rw [site_join hfirm.linkless hdescends, hsite] at heffect
    have hlater := heffect.linkless (hopens.linkless hfirm.linkless)
    have hdirectories (location : Location) (hdirectory : disk.tree.get? location = some .directory) :=
      heffect.directory (hopens.kept hdirectory)
    rw [run_writeEach]
    generalize played (destination.write a) disk = played at *
    obtain ⟨reply, later⟩ := played
    dsimp only at hdone hhere heffect hlater hdirectories
    rw [hdone]
    refine ih (hfirm.keep hlater hhere hdirectories) ?_ hrest ?_ ?_
    · rw [site_congr hfirm.linkless hlater hhere, hsite]
    · exact hroot.later hfirm.linkless hlater hhere hdirectories
    · intro b hb
      refine admits_of_effect horderly ha heffect hb ?_
      exact admits_of_opens horderly ha hfirm hsite hopens hb (hadmits b hb)

end Destination

/-- A delivery to a directory that is there does not fail if nothing is in the way of any file. -/
theorem delivery_succeeds {destination : Destination} (hreal : destination.dryRun = false)
    {artifacts : List Artifact} (horderly : Artifact.Orderly artifacts)
    (hfits : ∀ a ∈ artifacts, a.Fits destination.root) {disk : Disk} (hlinks : disk.tree.Linkless)
    (hroot : disk.entry destination.root = .ok .directory)
    (hadmits : ∀ a ∈ artifacts, disk.Admits (disk.site destination.root) a) :
    ((destination.writeAll artifacts).run disk).1.failure? = none :=
  Destination.writeEach_succeeds hreal horderly (Disk.firm_of_entry hlinks fun _ => hroot) rfl
    (fun _ => Destination.mem_order.1) hfits (Disk.passes_of_entry hlinks hroot) hadmits

end EntityForge
