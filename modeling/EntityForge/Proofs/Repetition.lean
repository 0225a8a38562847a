import EntityForge.Proofs.Attempt
import EntityForge.Proofs.Interruption
import EntityForge.Proofs.Standing

/-!
What a delivery does that has been made before.

A delivery that does not fail leaves every file where it is found again, or where it can be replaced by the same
contents, and later files of it do not change that. So nothing fails when it is made again: no directory has to be
made, files to be edited by hand are left alone, and the others are replaced by what they hold. Main statements:
`rests_of_writeEach`, `writeEach_of_rests`, `Settles.agree` and `delivery_idempotent`.
-/

namespace EntityForge

open Artifact

/-- What is reported of a file that has been delivered before. -/
def WritePolicy.repeated : WritePolicy → Outcome
  | .skipIfExists => .skipped
  | .overwrite => .written

namespace Disk

/-- Directories stay, and at the places of some files nothing comes up that would be in their way. -/
structure Keeps (site : Location) (all : List Artifact) (before after : Disk) : Prop where
  linkless : after.tree.Linkless
  here : after.here = before.here
  directory : ∀ location, before.tree.get? location = some .directory →
    after.tree.get? location = some .directory
  file : ∀ a ∈ all, (∃ text, before.tree.get? (a.place site) = some (.file text)) →
    ∃ text, after.tree.get? (a.place site) = some (.file text)
  vacant : ∀ a ∈ all, before.tree.get? (beside (a.place site)) = none →
    after.tree.get? (beside (a.place site)) = none

variable {site : Location} {all : List Artifact} {artifact : Artifact}

/-- A disk on which a file has been delivered and can be delivered again without a change: it is found where it is,
or it can replace itself. -/
inductive Rests (disk : Disk) (site : Location) (target : Path) (artifact : Artifact) : Prop where
  | found (skip : artifact.policy = .skipIfExists) (sendable : target.Sendable)
      (passes : disk.Passes target (disk.site target)) : Rests disk site target artifact
  | kept (skip : artifact.policy = .skipIfExists) (reaches : disk.Reaches target (artifact.place site))
      (open_end : target.endsInSlash = false)
      (file : ∃ text, disk.tree.get? (artifact.place site) = some (.file text)) : Rests disk site target artifact
  /-- A file that is asked for with a slash at the end is not found, and is in the way all the same. -/
  | obstructed (skip : artifact.policy = .skipIfExists) (reaches : disk.Reaches target (artifact.place site))
      (slash : target.endsInSlash = true)
      (file : ∃ text, disk.tree.get? (artifact.place site) = some (.file text))
      (staged : disk.Reaches (Delivery.staging target) (beside (artifact.place site)))
      (vacant : disk.tree.get? (beside (artifact.place site)) = none) : Rests disk site target artifact
  | replaced (overwrite : artifact.policy = .overwrite) (reaches : disk.Reaches target (artifact.place site))
      (open_end : target.endsInSlash = false)
      (file : ∃ text, disk.tree.get? (artifact.place site) = some (.file text))
      (staged : disk.Reaches (Delivery.staging target) (beside (artifact.place site)))
      (vacant : disk.tree.get? (beside (artifact.place site)) = none) : Rests disk site target artifact

/-- A file goes on resting where it is. -/
theorem Rests.later {disk after : Disk} {target : Path} (hrests : disk.Rests site target artifact)
    (h : disk.tree.Linkless) (hkeeps : Keeps site all disk after) (hartifact : artifact ∈ all) :
    after.Rests site target artifact := by
  have hreaches {path : Path} {location : Location} (hpath : disk.Reaches path location) :=
    hpath.later h hkeeps.linkless hkeeps.here hkeeps.directory
  have hfile := hkeeps.file artifact hartifact
  have hvacant := hkeeps.vacant artifact hartifact
  cases hrests with
  | found skip sendable passes =>
    refine .found skip sendable ?_
    rw [site_congr h hkeeps.linkless hkeeps.here]
    exact passes.later h hkeeps.linkless hkeeps.here hkeeps.directory
  | kept skip reaches open_end file => exact .kept skip (hreaches reaches) open_end (hfile file)
  | obstructed skip reaches slash file staged vacant =>
    exact .obstructed skip (hreaches reaches) slash (hfile file) (hreaches staged) (hvacant vacant)
  | replaced overwrite reaches open_end file staged vacant =>
    exact .replaced overwrite (hreaches reaches) open_end (hfile file) (hreaches staged) (hvacant vacant)

end Disk

namespace Delivery

open Disk

section Attempt

variable {disk : Disk} (h : disk.tree.Linkless) {artifact : Artifact} {target : Path} {site : Location}
  (htarget : target.EndsInName) (hstaging : (staging target).EndsInName)
  (hopen : (staging target).endsInSlash = false) (hplace : disk.site target = artifact.place site)
  (hbeside : disk.site (staging target) = beside (artifact.place site))
  (hne : artifact.place site ≠ beside (artifact.place site))

include h htarget hstaging hplace hbeside hne

omit htarget hstaging hplace hbeside hne in
/-- What could be reached while a temporary file was there can be reached before and after. -/
theorem reaches_of_staged {written later : Disk} {path : Path} {location : Location} {outcome : Outcome}
    (hstaged : Turns (disk.site (staging target)) (some (.file artifact.contents)) disk written)
    (hreaches : written.Reaches path location)
    (heffect : Effect artifact (disk.site target) (disk.site (staging target)) disk.tree.get? later.tree.get?
      outcome) (hhere : later.here = disk.here) : disk.Reaches path location ∧ later.Reaches path location := by
  have hearlier := hreaches.later (hstaged.linkless h rfl) h hstaged.here.symm (hstaged.directory_before (by simp))
  exact ⟨hearlier, hearlier.later h (heffect.linkless h) hhere fun _ => heffect.directory⟩

/-- A file that has been replaced can be replaced again. -/
theorem rests_of_replace (hpolicy : artifact.policy = .overwrite) {outcome : Outcome}
    (hdone : (played (replace target artifact.contents) disk).1 = .ok outcome) :
    (played (replace target artifact.contents) disk).2.Rests site target artifact := by
  have hsiteNe : disk.site (staging target) ≠ disk.site target := by rw [hplace, hbeside]; exact hne.symm
  obtain ⟨heffect, hhere⟩ := effect_of_replace h htarget hstaging hsiteNe hpolicy hdone
  unfold replace at hdone
  obtain ⟨_, hwrite, hdone, -⟩ := played_bind_ok hdone
  obtain ⟨_, hrename, -, -⟩ := played_bind_ok hdone
  obtain ⟨hwritten, hdisk⟩ := reply_of_request hwrite
  rw [hdisk] at hrename
  obtain ⟨hrenamed, -⟩ := reply_of_request hrename
  obtain ⟨hstaged, -, -, -⟩ := turns_of_write h hstaging hwritten
  have hreachesStaging := reaches_of_write h hstaging hwritten
  generalize played (replace target artifact.contents) disk = last at *
  generalize (disk.answer (.write (staging target) artifact.contents)).2 = written at *
  obtain ⟨hreaches, hslash⟩ := reaches_of_rename (hstaged.linkless h rfl) htarget hrenamed
  rw [site_congr h (hstaged.linkless h rfl) hstaged.here, hplace] at hreaches
  obtain ⟨-, hreachesLater⟩ := reaches_of_staged h hstaged hreaches heffect hhere
  have hstagedLater := hreachesStaging.later h (heffect.linkless h) hhere fun _ => heffect.directory
  rw [hbeside] at hstagedLater
  rw [hplace, hbeside] at heffect
  obtain ⟨hsettled, -, houtcome⟩ := heffect.at_place hne
  refine .replaced hpolicy hreachesLater hslash ⟨artifact.contents, ?_⟩ hstagedLater ?_
  · rw [hsettled, settle, hpolicy]
  · exact (heffect.at_temporary hne).2.1 (houtcome.2 (Or.inl hpolicy))

section Staged

variable (hpolicy : artifact.policy = .skipIfExists) {written linked : Disk}
  (hstaged : Turns (disk.site (staging target)) (some (.file artifact.contents)) disk written)
  (hfree : disk.tree.get? (disk.site (staging target)) ≠ some .directory)
  (hnul : (Request.write (staging target) artifact.contents).hasNul = false) {follow : Bool} {found : Place}
  (hwalk : disk.place follow (staging target) = .ok found)

include hopen hpolicy hstaged hfree hnul hwalk

/-- A new file is found where it has got its name. -/
theorem rests_of_linked (hlink : written.answer (.link (staging target) target) = (.ok (), linked)) :
    (linked.answer (.remove (staging target))).2.Rests site target artifact := by
  have hsiteNe : disk.site (staging target) ≠ disk.site target := by rw [hplace, hbeside]; exact hne.symm
  have hreply := congrArg Prod.fst hlink
  obtain ⟨hreaches, hslash⟩ := reaches_of_link (hstaged.linkless h rfl) htarget hreply
  obtain ⟨heffect, hhere⟩ := effect_of_linked h hstaging hsiteNe hstaged hfree hnul hwalk hopen hreply
  rw [hlink] at heffect hhere
  dsimp only at heffect hhere
  generalize (linked.answer (.remove (staging target))).2 = removed at *
  rw [site_congr h (hstaged.linkless h rfl) hstaged.here, hplace] at hreaches
  obtain ⟨-, hreachesLater⟩ := reaches_of_staged h hstaged hreaches heffect hhere
  rw [hplace, hbeside] at heffect
  obtain ⟨-, -, -, hget⟩ := heffect
  exact .kept hpolicy hreachesLater hslash ⟨artifact.contents, by rw [hget, Function.update_self]⟩

/-- A file that is in the way of another one and is not found stays in its way. -/
theorem rests_of_refused (hreachesStaging : disk.Reaches (staging target) (beside (artifact.place site)))
    (hmissed : ((Session.exists? target).run disk).1 = false)
    (hlink : written.answer (.link (staging target) target) = (.error .alreadyExists, linked)) :
    (linked.answer (.remove (staging target))).2.Rests site target artifact := by
  have hsiteNe : disk.site (staging target) ≠ disk.site target := by rw [hplace, hbeside]; exact hne.symm
  have hlinks := hstaged.linkless h rfl
  have hreply := congrArg Prod.fst hlink
  obtain ⟨hsame, hslash, hthere, hplain, hremoved⟩ :=
    refused_of_link h htarget hstaging hsiteNe hstaged hfree hnul hwalk hopen hmissed hreply
  rw [hlink] at hsame
  obtain rfl : linked = written := hsame
  generalize (linked.answer (.remove (staging target))).2 = removed at *
  have hsite (path : Path) := site_congr h hlinks hstaged.here path
  have hreaches : linked.Reaches target (linked.site target) := by
    refine reaches_of_taken hlinks hstaging htarget (by rw [hsite, hstaged.self]) hreply ?_
    rwa [hsite, hstaged.other hsiteNe.symm]
  have hearlier := hreaches.later hlinks h hstaged.here.symm (hstaged.directory_before (by simp))
  obtain ⟨entry, hentry⟩ := Option.ne_none_iff_exists'.1 hthere
  obtain rfl | ⟨text, rfl⟩ := FileTree.entry_of_linkless h hentry
  · exact absurd hentry hplain
  rw [hsite, hplace] at hearlier
  rw [hplace] at hentry hsiteNe
  rw [hbeside] at hremoved hfree hsiteNe
  refine .obstructed hpolicy (hearlier.turned h hremoved hfree rfl) hslash ⟨text, ?_⟩
    (hreachesStaging.turned h hremoved hfree rfl) hremoved.self
  rw [hremoved.other hne, hentry]

end Staged

include hopen in
/-- A file to be edited by hand is found again where it is, or it is in the way as it was. -/
theorem rests_of_writeNew (hpolicy : artifact.policy = .skipIfExists) {outcome : Outcome}
    (hdone : (played (writeNew target artifact.contents) disk).1 = .ok outcome) :
    (played (writeNew target artifact.contents) disk).2.Rests site target artifact := by
  unfold writeNew at hdone ⊢
  rw [played_bind, played_session, run_exists?] at hdone ⊢
  dsimp only at hdone ⊢
  cases hfound : ((Session.exists? target).run disk).1 with
  | true =>
    simp only [if_true, played_pure]
    obtain ⟨hsend, hpasses | ⟨hreaches, hslash, hfile⟩⟩ := reaches_of_exists h htarget hfound
    · exact .found hpolicy hsend hpasses
    · rw [hplace] at hreaches hfile
      exact .kept hpolicy hreaches hslash hfile
  | false =>
    simp only [hfound, Bool.false_eq_true, if_false] at hdone ⊢
    obtain ⟨_, hwrite, hdone, hafter⟩ := played_bind_ok hdone
    rw [hafter]
    obtain ⟨hwritten, hdisk⟩ := reply_of_request hwrite
    rw [hdisk] at hdone ⊢
    have hreachesStaging := hbeside ▸ reaches_of_write h hstaging hwritten
    obtain ⟨hstaged, hfree, hnul, follow, found, hwalk⟩ := turns_of_write h hstaging hwritten
    generalize (disk.answer (.write (staging target) artifact.contents)).2 = written at *
    rw [played_send] at hdone ⊢
    rcases hlink : written.answer (.link (staging target) target) with ⟨fault | done, linked⟩ <;>
      rw [hlink] at hdone <;> rw [played_send] at hdone ⊢
    · cases fault with
      | alreadyExists =>
        have hrests := rests_of_refused h htarget hstaging hopen hplace hbeside hne hpolicy hstaged hfree hnul hwalk
          hreachesStaging hfound hlink
        generalize (linked.answer (.remove (staging target))).2 = removed at hrests ⊢
        exact hrests
      | _ => cases hdone
    · have hrests := rests_of_linked h htarget hstaging hopen hplace hbeside hne hpolicy hstaged hfree hnul hwalk hlink
      generalize (linked.answer (.remove (staging target))).2 = removed at hrests ⊢
      exact hrests

include hopen in
theorem rests_of_attempt {outcome : Outcome}
    (hdone : (played (attempt artifact.policy target artifact.contents) disk).1 = .ok outcome) :
    (played (attempt artifact.policy target artifact.contents) disk).2.Rests site target artifact := by
  cases hpolicy : artifact.policy with
  | skipIfExists =>
    rw [hpolicy] at hdone
    exact rests_of_writeNew h htarget hstaging hopen hplace hbeside hne hpolicy hdone
  | overwrite =>
    rw [hpolicy] at hdone
    exact rests_of_replace h htarget hstaging hplace hbeside hne hpolicy hdone

end Attempt

section Again

variable {disk : Disk} {artifact : Artifact} {target : Path} {site : Location}

/-- What is found is skipped. -/
theorem writeNew_of_exists (hfound : ((Session.exists? target).run disk).1 = true) (contents : String) :
    played (writeNew target contents) disk = (.ok .skipped, disk) := by
  unfold writeNew
  rw [played_bind, played_session, run_exists?, hfound]
  rfl

variable (h : disk.tree.Linkless)

include h

/-- What is in the way and is not found is skipped too, once the temporary file has come and gone. -/
theorem writeNew_of_obstructed {place temporary : Location} (hreaches : disk.Reaches target place)
    (hslash : target.endsInSlash = true) {text : String} (hfile : disk.tree.get? place = some (.file text))
    (hstaging : disk.Reaches (staging target) temporary) (hopen : (staging target).endsInSlash = false)
    (hne : place ≠ temporary) (hvacant : disk.tree.get? temporary = none) (contents : String) :
    ∃ later, played (writeNew target contents) disk = (.ok .skipped, later) ∧ later.here = disk.here ∧
      later.tree.get? = disk.tree.get? := by
  obtain ⟨hreply, hlinks, htargetLater, hstagingLater, hstagedFile, hsame⟩ :=
    staged h hreaches hstaging hopen hne (by simp [hvacant]) contents
  obtain ⟨-, hturns⟩ := hstaging.answer_write h hopen (by simp [hvacant]) contents
  unfold writeNew
  rw [played_bind, played_session, run_exists?, hreaches.not_exists_of_slash h hslash hfile]
  simp only [Bool.false_eq_true, if_false]
  rw [played_bind, played_orBlame, run_send, hreply]
  generalize (disk.answer (.write (staging target) contents)).2 = written at *
  have hlink := hstagingLater.answer_link_of_taken hlinks hopen htargetLater hstagedFile (by simp [hsame, hfile])
  have hremoved := hstagingLater.answer_remove hlinks hopen hstagedFile
  dsimp only [Except.mapError]
  rw [played_send, hlink]
  dsimp only
  rw [played_send]
  generalize written.answer (.remove (staging target)) = removed at hremoved ⊢
  refine ⟨removed.2, rfl, hremoved.here.trans hturns.here, ?_⟩
  rw [hremoved.get?, hturns.get?, Function.update_idem, ← hvacant, Function.update_eq_self]

/-- A file that is there is replaced, and nothing else changes where there is no temporary file. -/
theorem replace_of_present (hoverwrite : artifact.policy = .overwrite) {place temporary : Location}
    (htarget : target.EndsInName) (hstaging : (staging target).EndsInName) (hplace : disk.site target = place)
    (hbeside : disk.site (staging target) = temporary) (hreaches : disk.Reaches target place)
    (hslash : target.endsInSlash = false) {text : String} (hfile : disk.tree.get? place = some (.file text))
    (hstaged : disk.Reaches (staging target) temporary) (hopen : (staging target).endsInSlash = false)
    (hne : place ≠ temporary) (hvacant : disk.tree.get? temporary = none) :
    ∃ later, played (replace target artifact.contents) disk = (.ok .written, later) ∧ later.here = disk.here ∧
      ∀ location, location ≠ place → later.tree.get? location = disk.tree.get? location := by
  have hdone := replace_succeeds h hreaches hslash hstaged hopen hne (by simp [hfile]) (by simp [hvacant])
    artifact.contents
  have hsites : disk.site (staging target) ≠ disk.site target := by
    rw [hplace, hbeside]
    exact hne.symm
  obtain ⟨heffect, hhere⟩ := effect_of_replace h htarget hstaging hsites hoverwrite hdone
  rw [hplace, hbeside] at heffect
  generalize played (replace target artifact.contents) disk = result at *
  refine ⟨result.2, Prod.ext hdone rfl, hhere, fun location hlocation => ?_⟩
  by_cases htemporary : location = temporary
  · rw [htemporary, hvacant]
    exact (heffect.at_temporary hne).2.1 rfl
  · exact heffect.other hlocation htemporary

/-- A file that rests where it is is delivered again: nothing changes but what is to be overwritten. -/
theorem attempt_of_rests (hrests : disk.Rests site target artifact) (htarget : target.EndsInName)
    (hstaging : (staging target).EndsInName) (hopen : (staging target).endsInSlash = false)
    (hplace : disk.site target = artifact.place site)
    (hbeside : disk.site (staging target) = beside (artifact.place site))
    (hne : artifact.place site ≠ beside (artifact.place site)) :
    ∃ later, played (attempt artifact.policy target artifact.contents) disk =
        (.ok artifact.policy.repeated, later) ∧ later.here = disk.here ∧
      ∀ location, later.tree.get? location = disk.tree.get? location ∨
        artifact.policy = .overwrite ∧ location = artifact.place site := by
  cases hrests with
  | found skip sendable passes =>
    rw [skip]
    have hne : target.text ≠ "" := by
      obtain ⟨names, name, hway, -⟩ := htarget
      exact Path.text_ne_empty_of_way hway
    have hfound : ((Session.exists? target).run disk).1 = true := by
      rw [run_exists?_fst, passes.answer_probe h sendable hne]
    exact ⟨disk, writeNew_of_exists hfound _, rfl, fun _ => Or.inl rfl⟩
  | kept skip reaches open_end file =>
    rw [skip]
    obtain ⟨text, hfile⟩ := file
    have hfound : ((Session.exists? target).run disk).1 = true := by
      rw [reaches.exists?_eq h open_end (by simp [hfile]), hfile]
      rfl
    exact ⟨disk, writeNew_of_exists hfound _, rfl, fun _ => Or.inl rfl⟩
  | obstructed skip reaches slash file staged vacant =>
    rw [skip]
    obtain ⟨text, hfile⟩ := file
    obtain ⟨later, hplayed, hhere, hget⟩ :=
      writeNew_of_obstructed h reaches slash hfile staged hopen hne vacant artifact.contents
    exact ⟨later, hplayed, hhere, fun location => Or.inl (by rw [hget])⟩
  | replaced overwrite reaches open_end file staged vacant =>
    rw [overwrite]
    obtain ⟨text, hfile⟩ := file
    obtain ⟨later, hplayed, hhere, hsame⟩ := replace_of_present h overwrite htarget hstaging hplace hbeside reaches
      open_end hfile staged hopen hne vacant
    refine ⟨later, hplayed, hhere, fun location => ?_⟩
    by_cases hlocation : location = artifact.place site
    · exact Or.inr ⟨rfl, hlocation⟩
    · exact Or.inl (hsame location hlocation)

end Again

end Delivery

namespace Settles

variable {site place : Location} {above above' : Artifact → Location → Prop}

section Step

variable {a : Artifact} {outcome : Outcome} {before opened after : Disk} {places : Location → Prop}
  (opens : before.Opens places opened)
  (effect : Effect a (a.place site) (beside (a.place site)) opened.tree.get? after.tree.get? outcome)
  (hne : a.place site ≠ beside (a.place site))

include effect hne

theorem step_contents (hoverwrite : a.policy = .overwrite) :
    after.tree.get? (a.place site) = some (.file a.contents) := by
  rw [(effect.at_place hne).1, settle, hoverwrite]

include opens

/-- A file stays that is not overwritten. -/
theorem step_file (hplace : place ≠ beside (a.place site)) (hkept : ¬(a.policy = .overwrite ∧ a.place site = place))
    {text : String} (hfile : before.tree.get? place = some (.file text)) :
    after.tree.get? place = some (.file text) := by
  by_cases hat : place = a.place site
  · subst hat
    have hskip : a.policy = .skipIfExists := by
      cases hpolicy : a.policy with
      | skipIfExists => rfl
      | overwrite => exact absurd ⟨hpolicy, rfl⟩ hkept
    rw [(effect.at_place hne).1, settle, hskip, opens.kept hfile]
    rfl
  · exact (effect.other hat hplace).trans (opens.kept hfile)

end Step

/-- Two deliveries of the same files, whatever the disks are like, leave the same at every place that is overwritten:
what was there before, if it was the same file, or what has come since. -/
theorem agree {all : List Artifact} (hall : Regular all) {first last first' last' : Disk}
    {delivered delivered' : List (Artifact × Outcome)} (h : Settles site above first delivered last)
    (h' : Settles site above' first' delivered' last') (hsame : delivered'.map Prod.fst = delivered.map Prod.fst)
    (hmem : ∀ d ∈ delivered, d.1 ∈ all) {b : Artifact} (hb : b ∈ all)
    (hplace : (∃ text, first.tree.get? (b.place site) = some (.file text) ∧
        first'.tree.get? (b.place site) = some (.file text)) ∨
      ∃ d ∈ delivered, d.1.policy = .overwrite ∧ d.1.place site = b.place site) :
    last.tree.get? (b.place site) = last'.tree.get? (b.place site) := by
  induction h generalizing first' delivered' with
  | nil disk =>
    obtain rfl : delivered' = [] := List.map_eq_nil_iff.1 hsame
    cases h'
    obtain ⟨text, hfile, hfile'⟩ | ⟨d, hd, -⟩ := hplace
    · rw [hfile, hfile']
    · cases hd
  | @cons a outcome rest before opened after last opens effect within tail ih =>
    obtain ⟨ha, hrest⟩ := List.forall_mem_cons.1 hmem
    cases h' with
    | nil disk => cases hsame
    | @cons a' outcome' rest' first' opened' after' last' opens' effect' within' tail' =>
      obtain ⟨rfl, htails⟩ := List.cons.inj hsame
      dsimp only at *
      have hne := hall.place_ne_beside ha ha site
      have hbeside := hall.place_ne_beside hb ha site
      apply ih tail' htails hrest
      by_cases hover : a'.policy = .overwrite ∧ a'.place site = b.place site
      · rw [← hover.2]
        exact Or.inl ⟨a'.contents, step_contents effect hne hover.1, step_contents effect' hne hover.1⟩
      · refine hplace.imp ?_ ?_
        · rintro ⟨text, hfile, hfile'⟩
          exact ⟨text, step_file opens effect hne hbeside hover hfile,
            step_file opens' effect' hne hbeside hover hfile'⟩
        · rintro ⟨d, hd, hd'⟩
          rcases List.mem_cons.1 hd with rfl | hd
          · exact absurd hd' hover
          · exact ⟨d, hd, hd'⟩

end Settles

namespace Destination

open Delivery Disk

variable {destination : Destination} (hreal : destination.dryRun = false) {artifact : Artifact}
  {all artifacts : List Artifact} {disk : Disk} {site : Location}

include hreal

/-- A file that has been delivered has come to rest, in directories that are there. -/
theorem rests_of_write (h : disk.tree.Linkless) (hsite : disk.site destination.root = site)
    (hpath : artifact.path.Descends) {outcome : Outcome}
    (hdone : (played (destination.write artifact) disk).1 = .ok outcome) :
    let later := (played (destination.write artifact) disk).2
    later.Houses (destination.root.join artifact.path) ∧
      later.Rests site (destination.root.join artifact.path) artifact := by
  intro later
  obtain ⟨htarget, hstaging, hopen, hbeside⟩ := staging_join h destination.root hpath
  have hjoin : disk.site (destination.root.join artifact.path) = artifact.place site := by
    rw [site_join h hpath, hsite, Artifact.place]
  have hne : artifact.place site ≠ beside (artifact.place site) := by
    rw [← hjoin]
    exact (beside_ne (site_ne_nil h htarget)).symm
  have hplayed := played_write hreal artifact disk
  rcases hmade : played (makeParent (destination.root.join artifact.path)) disk with ⟨failure | done, opened⟩ <;>
    rw [hmade] at hplayed <;> dsimp only at hplayed
  · rw [hplayed] at hdone
    cases hdone
  have hopens := opens_makeParent disk (destination.root.join artifact.path)
  have hhouses := houses_of_makeParent h (congrArg Prod.fst hmade)
  rw [hmade] at hopens hhouses
  dsimp only at hopens hhouses
  have hlinks : opened.tree.Linkless := hopens.linkless h
  have hsiteOpened (path : Path) := site_congr h hlinks hopens.here path
  rw [← hsiteOpened] at hjoin
  rw [← hsiteOpened, ← hsiteOpened, hjoin] at hbeside
  dsimp only [later]
  rw [hplayed] at hdone ⊢
  have hrests := rests_of_attempt hlinks htarget hstaging hopen hjoin hbeside hne hdone
  have hsiteNe : opened.site (staging (destination.root.join artifact.path)) ≠
      opened.site (destination.root.join artifact.path) := by
    rw [hbeside, hjoin]
    exact hne.symm
  obtain ⟨heffect, hhere⟩ := effect_of_attempt hlinks htarget hstaging hsiteNe hopen
    (Path.endsInSlash_join hpath.relative hpath.text_ne_empty) (by rfl) hdone
  generalize played (attempt artifact.policy (destination.root.join artifact.path) artifact.contents) opened =
    last at *
  exact ⟨hhouses.later hlinks (heffect.linkless hlinks) hhere fun _ => heffect.directory, hrests⟩

section Durable

variable (hall : Durable all) (hmem : ∀ a ∈ artifacts, a ∈ all) (hfirm : disk.Firm destination.root)
  (hsite : disk.site destination.root = site)

include hall hmem hfirm hsite

/-- A delivery puts nothing in the way of any file. -/
theorem keeps_writeEach (hdone : ((destination.writeEach artifacts).run disk).1.failure? = none) :
    let last := ((destination.writeEach artifacts).run disk).2
    Keeps site all disk last ∧ last.Firm destination.root ∧ last.site destination.root = site := by
  intro last
  have hdescends (a : Artifact) (ha : a ∈ artifacts) : a.path.Descends := hall.descends a (hmem a ha)
  obtain ⟨horder, hsettles⟩ := settles_of_writeEach hreal hdescends hfirm hsite hdone
  have hspares := spares_writeEach hfirm.grounded hsite hdescends
  dsimp only [last]
  generalize (destination.writeEach artifacts).run disk = result at *
  have hdelivered (d : Artifact × Outcome) (hd : d ∈ result.1.delivered) : d.1 ∈ all := by
    apply hmem
    rw [← horder]
    exact List.mem_map_of_mem hd
  have hlinks : result.2.tree.Linkless := fun location => (hspares.link? location).trans (hfirm.linkless location)
  refine ⟨⟨hlinks, hspares.here, hspares.directory, ?_, ?_⟩, hfirm.keep hlinks hspares.here hspares.directory,
    (hspares.changes.site _).trans hsite⟩
  · rintro a ha ⟨text, hfile⟩
    exact hsettles.file_place hall.regular hdelivered ha hfile
  · intro a ha
    refine hsettles.vacant_temporary hall.regular (fun b hb hencloses => ?_) hdelivered ha
    have hopened := hsite ▸ hencloses.opened
    exact hopened.ne_beside (List.forall_mem_singleton.2 hb) ha hall rfl

omit hmem in
/-- The same of a single file. -/
theorem keeps_write (ha : artifact ∈ all) {outcome : Outcome}
    (hdone : (played (destination.write artifact) disk).1 = .ok outcome) :
    let later := (played (destination.write artifact) disk).2
    Keeps site all disk later ∧ later.Firm destination.root ∧ later.site destination.root = site := by
  intro later
  have hone : (destination.writeEach [artifact]).run disk = (⟨[(artifact, outcome)], none⟩, later) := by
    rw [run_writeEach]
    dsimp only [later]
    generalize played (destination.write artifact) disk = played at hdone ⊢
    obtain ⟨reply, later⟩ := played
    dsimp only at hdone
    rw [hdone]
    rfl
  have hkeeps := keeps_writeEach hreal hall (fun a h => List.mem_singleton.1 h ▸ ha) hfirm hsite (by rw [hone])
  rwa [hone] at hkeeps

/-- After a delivery that does not fail all files of it rest where they are, in directories that are there. -/
theorem rests_of_writeEach (hdone : ((destination.writeEach artifacts).run disk).1.failure? = none) :
    let last := ((destination.writeEach artifacts).run disk).2
    ∀ a ∈ artifacts, last.Houses (destination.root.join a.path) ∧
      last.Rests site (destination.root.join a.path) a := by
  induction artifacts generalizing disk with
  | nil => simp
  | cons a rest ih =>
    obtain ⟨ha, hrest⟩ := List.forall_mem_cons.1 hmem
    have hwrite (outcome : Outcome) (h : (played (destination.write a) disk).1 = .ok outcome) :=
      And.intro (rests_of_write hreal hfirm.linkless hsite (hall.descends a ha) h)
        (keeps_write hreal hall hfirm hsite ha h)
    rw [run_writeEach] at hdone ⊢
    rcases hplayed : played (destination.write a) disk with ⟨failure | outcome, later⟩ <;>
      rw [hplayed] at hdone hwrite
    · cases hdone
    · obtain ⟨⟨hhouses, hrests⟩, hkeeps, hlater, hlaterSite⟩ := hwrite outcome rfl
      obtain ⟨hlast, -, -⟩ := keeps_writeEach hreal hall hrest hlater hlaterSite hdone
      refine List.forall_mem_cons.2 ⟨⟨?_, ?_⟩, ih hrest hlater hlaterSite hdone⟩
      · exact hhouses.later hkeeps.linkless hlast.linkless hlast.here hlast.directory
      · exact hrests.later hkeeps.linkless hlast ha

omit hmem in
/-- A file that rests where it is, in directories that are there, is delivered again. -/
theorem write_of_rests (ha : artifact ∈ all) (hhouses : disk.Houses (destination.root.join artifact.path))
    (hrests : disk.Rests site (destination.root.join artifact.path) artifact) :
    ∃ later, played (destination.write artifact) disk = (.ok artifact.policy.repeated, later) ∧
      later.here = disk.here ∧ ∀ location, later.tree.get? location = disk.tree.get? location ∨
        artifact.policy = .overwrite ∧ location = artifact.place site := by
  have hpath := hall.descends artifact ha
  obtain ⟨htarget, hstaging, hopen, hbeside⟩ := staging_join hfirm.linkless destination.root hpath
  have hjoin : disk.site (destination.root.join artifact.path) = artifact.place site := by
    rw [site_join hfirm.linkless hpath, hsite, Artifact.place]
  rw [hjoin] at hbeside
  rw [played_write hreal, hhouses.makeParent_eq hfirm.linkless]
  exact attempt_of_rests hfirm.linkless hrests htarget hstaging hopen hjoin hbeside
    (hall.regular.place_ne_beside ha ha site)

/-- So no delivery of such files fails, and nothing changes but what is to be overwritten. -/
theorem writeEach_of_rests (hrests : ∀ a ∈ artifacts, disk.Houses (destination.root.join a.path) ∧
      disk.Rests site (destination.root.join a.path) a) :
    ∃ last, (destination.writeEach artifacts).run disk =
        (⟨artifacts.map fun a => (a, a.policy.repeated), none⟩, last) ∧
      last.here = disk.here ∧ ∀ location, last.tree.get? location = disk.tree.get? location ∨
        ∃ a ∈ artifacts, a.policy = .overwrite ∧ location = a.place site := by
  induction artifacts generalizing disk with
  | nil => exact ⟨disk, rfl, rfl, fun _ => Or.inl rfl⟩
  | cons a rest ih =>
    obtain ⟨ha, hrest⟩ := List.forall_mem_cons.1 hmem
    obtain ⟨⟨hhouses, hself⟩, hothers⟩ := List.forall_mem_cons.1 hrests
    obtain ⟨later, hplayed, hhere, hsame⟩ := write_of_rests hreal hall hfirm hsite ha hhouses hself
    have hkeeps := keeps_write hreal hall hfirm hsite ha (congrArg Prod.fst hplayed)
    rw [hplayed] at hkeeps
    obtain ⟨hkeeps, hlater, hlaterSite⟩ := hkeeps
    obtain ⟨last, hrun, hlastHere, hlastSame⟩ := ih hrest hlater hlaterSite fun b hb =>
      ⟨(hothers b hb).1.later hfirm.linkless hkeeps.linkless hkeeps.here hkeeps.directory,
        (hothers b hb).2.later hfirm.linkless hkeeps (hrest b hb)⟩
    refine ⟨last, ?_, hlastHere.trans hhere, fun location => ?_⟩
    · rw [run_writeEach, hplayed]
      dsimp only
      rw [hrun]
      rfl
    · rcases hlastSame location with hlast | ⟨b, hb, hpolicy, hplace⟩
      · rw [hlast]
        exact (hsame location).imp_right fun ⟨hpolicy, hplace⟩ => ⟨a, List.mem_cons_self, hpolicy, hplace⟩
      · exact Or.inr ⟨b, List.mem_cons_of_mem a hb, hpolicy, hplace⟩

omit hall hsite in
/-- Two deliveries of the same files that do not fail leave the same at all places that are overwritten. -/
theorem agree_of_writeEach (hall : Regular all) (hsite : disk.site destination.root = site) {other : Disk}
    (hother : other.Firm destination.root) (hotherSite : other.site destination.root = site)
    (hdone : ((destination.writeEach artifacts).run disk).1.failure? = none)
    (hotherDone : ((destination.writeEach artifacts).run other).1.failure? = none) (ha : artifact ∈ artifacts)
    (hpolicy : artifact.policy = .overwrite) :
    ((destination.writeEach artifacts).run disk).2.tree.get? (artifact.place site) =
      ((destination.writeEach artifacts).run other).2.tree.get? (artifact.place site) := by
  have hdescends (a : Artifact) (ha : a ∈ artifacts) : a.path.Descends := hall.descends a (hmem a ha)
  obtain ⟨horder, hsettles⟩ := settles_of_writeEach hreal hdescends hfirm hsite hdone
  obtain ⟨hotherOrder, hotherSettles⟩ := settles_of_writeEach hreal hdescends hother hotherSite hotherDone
  have hdelivered : artifact ∈ ((destination.writeEach artifacts).run disk).1.delivered.map Prod.fst := by
    rwa [horder]
  obtain ⟨d, hd, rfl⟩ := List.mem_map.1 hdelivered
  refine hsettles.agree hall hotherSettles (hotherOrder.trans horder.symm) ?_ (hmem _ ha)
    (Or.inr ⟨d, hd, hpolicy, rfl⟩)
  intro d hd
  apply hmem
  rw [← horder]
  exact List.mem_map_of_mem hd

end Durable

/-- A delivery that has begun might as well have begun with the directories of its first file there. -/
theorem run_of_opened (h : disk.tree.Linkless) (hpath : artifact.path.Descends)
    (hdone : ((destination.writeEach (artifact :: artifacts)).run disk).1.failure? = none) :
    ∃ opened : Disk, opened.Firm destination.root ∧
      (destination.writeEach (artifact :: artifacts)).run opened =
        (destination.writeEach (artifact :: artifacts)).run disk := by
  rw [run_writeEach, played_write hreal] at hdone ⊢
  rcases hmade : played (makeParent (destination.root.join artifact.path)) disk with ⟨failure | done, opened⟩
  · rw [hmade] at hdone
    cases hdone
  have hopens := opens_makeParent disk (destination.root.join artifact.path)
  have hhouses := houses_of_makeParent h (congrArg Prod.fst hmade)
  rw [hmade] at hopens hhouses
  have hlinks : opened.tree.Linkless := hopens.linkless h
  refine ⟨opened, hhouses.firm hlinks hpath, ?_⟩
  rw [run_writeEach, played_write hreal, hhouses.makeParent_eq hlinks]

theorem writeEach_idempotent (hall : Durable artifacts) (h : disk.tree.Linkless)
    (hdone : ((destination.writeEach artifacts).run disk).1.failure? = none) :
    let first := (destination.writeEach artifacts).run disk
    let second := (destination.writeEach artifacts).run first.2
    second.1 = ⟨artifacts.map fun a => (a, a.policy.repeated), none⟩ ∧
      second.2.here = first.2.here ∧ second.2.tree.get? = first.2.tree.get? := by
  cases artifacts with
  | nil => exact ⟨rfl, rfl, rfl⟩
  | cons a rest =>
    obtain ⟨opened, hfirm, hrun⟩ := run_of_opened hreal h (hall.descends a List.mem_cons_self) hdone
    rw [← hrun] at hdone ⊢
    have hmem : ∀ b ∈ a :: rest, b ∈ a :: rest := fun _ => id
    obtain ⟨hkeeps, hlast, hlastSite⟩ := keeps_writeEach hreal hall hmem hfirm rfl hdone
    have hrests := rests_of_writeEach hreal hall hmem hfirm rfl hdone
    obtain ⟨last, hagain, hhere, hsame⟩ := writeEach_of_rests hreal hall hmem hlast hlastSite hrests
    have hagree (b : Artifact) (hb : b ∈ a :: rest) (hpolicy : b.policy = .overwrite) :=
      agree_of_writeEach hreal hmem hfirm hall.regular rfl hlast hlastSite hdone (by rw [hagain]) hb hpolicy
    intro first second
    dsimp only [second, first]
    rw [hagain] at hagree ⊢
    refine ⟨rfl, hhere, funext fun location => ?_⟩
    rcases hsame location with hkept | ⟨b, hb, hpolicy, rfl⟩
    · exact hkept
    · exact (hagree b hb hpolicy).symm

end Destination

/-- A delivery to a disk without links that does not fail can be made again at once. Then no file fails either: those
to be edited by hand are skipped, the others are written, and the disk is what it was. -/
theorem delivery_idempotent {destination : Destination} (hreal : destination.dryRun = false)
    {artifacts : List Artifact} (hdurable : Durable artifacts) {disk : Disk} (hlinks : disk.tree.Linkless)
    (hdone : ((destination.writeAll artifacts).run disk).1.failure? = none) :
    let first := (destination.writeAll artifacts).run disk
    let second := (destination.writeAll artifacts).run first.2
    second.1 = ⟨(Destination.order artifacts).map fun a => (a, a.policy.repeated), none⟩ ∧
      second.2.here = first.2.here ∧ second.2.tree.get? = first.2.tree.get? :=
  Destination.writeEach_idempotent hreal
    ⟨fun a ha => hdurable.descends a (Destination.mem_order.1 ha),
      fun a ha => hdurable.lasting a (Destination.mem_order.1 ha)⟩ hlinks hdone

/-- Several files for one place, a file with a slash at the end of its path, and one whose place is a directory that
another one lies in. -/
def settled : List Artifact :=
  paired ++ [⟨⟨"notes.ts/"⟩, "third", .skipIfExists⟩, ⟨⟨"views/page.ts"⟩, "page", .skipIfExists⟩,
    ⟨⟨"views"⟩, "no directory", .skipIfExists⟩]

theorem delivery_idempotent_for_settled :
    Durable settled ∧ Disk.empty.tree.Linkless ∧
      ((Destination.writeAll ⟨⟨"out"⟩, false⟩ settled).run .empty).1.failure? = none ∧
      let first := (Destination.writeAll ⟨⟨"out"⟩, false⟩ settled).run .empty
      let second := (Destination.writeAll ⟨⟨"out"⟩, false⟩ settled).run first.2
      second.1 = ⟨(Destination.order settled).map fun a => (a, a.policy.repeated), none⟩ ∧
        second.2.here = first.2.here ∧ second.2.tree.get? = first.2.tree.get? := by
  have hdescends (a : Artifact) (ha : a ∈ settled) : a.path.Descends := by
    have hparts : ∀ a ∈ settled, a.path.text ≠ "" ∧ a.path.isAbsolute = false ∧
        Path.Component.here ∉ a.path.components ∧ Path.Component.up ∉ a.path.components := by decide
    obtain ⟨hne, hrelative, hhere, hup⟩ := hparts a ha
    exact ⟨hne, hrelative, hhere, hup⟩
  have hlast : ∀ a ∈ settled, ∀ part ∈ a.path.way, part.toList.getLast? ≠ some 'p' := by decide
  have hdurable : Durable settled :=
    ⟨hdescends, fun a ha name _ => lasting_of_getLast? (hdescends a ha) (hlast a ha) name⟩
  have hlinks : Disk.empty.tree.Linkless := FileTree.link?_of_entries (by decide)
  have hdone : ((Destination.writeAll ⟨⟨"out"⟩, false⟩ settled).run .empty).1.failure? = none := by
    decide +kernel
  exact ⟨hdurable, hlinks, hdone, delivery_idempotent rfl hdurable hlinks hdone⟩

end EntityForge
