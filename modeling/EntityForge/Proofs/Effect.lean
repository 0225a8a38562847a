import EntityForge.Proofs.Opening

/-!
What exactly a delivery does to a disk without links, one file at a time.

First directories are made in which the file is to lie, and then at most two places change: the place of the
file, and that of the temporary file beside it. Main statements: `effect_of_writeNew`, `effect_of_replace` and
`effect_of_write`.
-/

namespace EntityForge

namespace Delivery

theorem run_exists?_fst (path : Path) (disk : Disk) :
    ((Session.exists? path).run disk).1 =
      match (disk.answer (.probe path)).1 with
      | .ok _ => true
      | .error _ => false := by
  unfold Session.exists?
  rw [run_probe]
  cases (disk.answer (.probe path)).1 <;> rfl

end Delivery

namespace Disk

section Requests

variable {disk : Disk} (h : disk.tree.Linkless) {path new : Path} {contents : String}

include h

theorem site_ne_nil (hpath : path.EndsInName) : disk.site path ≠ [] := by
  obtain ⟨names, name, hway, hup⟩ := hpath
  rw [site_of_way h hway hup]
  simp

/-- A place counts as taken only where a walk arrives at something. -/
theorem vacancy_taken (hpath : path.EndsInName) {directory : Bool}
    (htaken : disk.vacancy directory path = .error .alreadyExists) :
    disk.tree.get? (disk.site path) ≠ none ∧ ∃ place, disk.place false path = .ok place := by
  obtain ⟨names, name, hway, hup⟩ := hpath
  cases hplace : disk.place false path with
  | error fault =>
    have hfault : fault = .alreadyExists := by simpa [vacancy, hplace, bind, Except.bind] using htaken
    exact absurd (hfault ▸ hplace) (place_ne_alreadyExists disk false path)
  | ok place =>
    refine ⟨?_, place, rfl⟩
    obtain ⟨-, hentry, -, hnamed⟩ := place_of_way h hway hup hplace
    intro hnone
    simp only [hnone, reduceCtorEq, or_false] at hnamed
    rw [hnone] at hentry
    rw [vacancy, hplace] at htaken
    simp only [bind, Except.bind, hnamed, hentry] at htaken
    split at htaken
    · next hbusy => simp at hbusy
    · split at htaken <;> cases htaken

theorem turns_of_write (hpath : path.EndsInName)
    (hreply : (disk.answer (.write path contents)).1 = .ok ()) :
    Turns (disk.site path) (some (.file contents)) disk (disk.answer (.write path contents)).2 ∧
      disk.tree.get? (disk.site path) ≠ some .directory ∧
      (Request.write path contents).hasNul = false ∧ ∃ follow place, disk.place follow path = .ok place := by
  obtain ⟨hnul, hserve⟩ := answer_of_ok hreply
  rw [hserve] at hreply ⊢
  obtain ⟨tree, htree, hafter⟩ := update_eq_ok hreply
  obtain ⟨place, hplace, hset⟩ := bind_eq_ok.1 htree
  have hroot := site_ne_nil h hpath
  obtain ⟨names, name, hway, hup⟩ := hpath
  obtain ⟨hlocation, hentry, -, -⟩ := place_of_way h hway hup hplace
  split at hset
  · cases hset
  · next hfile =>
    obtain rfl := Except.ok.inj hset
    refine ⟨?_, ?_, hnul, _, place, hplace⟩
    · change Turns _ _ disk (disk.update (disk.write path contents)).2
      rw [hafter, hlocation]
      exact turns_set hroot disk _
    · rw [← hentry]
      simp only [Bool.or_eq_true, decide_eq_true_eq, not_or] at hfile
      exact hfile.2

theorem turns_of_link (hpath : path.EndsInName)
    (hfile : disk.tree.get? (disk.site path) = some (.file contents))
    (hreply : (disk.answer (.link path new)).1 = .ok ()) :
    Turns (disk.site new) (some (.file contents)) disk (disk.answer (.link path new)).2 ∧
      disk.tree.get? (disk.site new) = none := by
  obtain ⟨-, hserve⟩ := answer_of_ok hreply
  rw [hserve] at hreply ⊢
  obtain ⟨tree, htree, hafter⟩ := update_eq_ok hreply
  obtain ⟨old, hold, hset⟩ := bind_eq_ok.1 htree
  obtain ⟨names, name, hway, hup⟩ := hpath
  obtain ⟨-, hentry, -, -⟩ := place_of_way h hway hup hold
  rw [hentry, hfile] at hset
  simp only at hset
  split at hset
  · cases hset
  · obtain ⟨location, hvacant, hset⟩ := bind_eq_ok.1 hset
    obtain ⟨hnew, rfl, hnone⟩ := vacancy_eq_ok hvacant
    obtain rfl := Except.ok.inj hset
    refine ⟨?_, hnone⟩
    change Turns _ _ disk (disk.update (disk.link path new)).2
    rw [hafter]
    exact turns_set hnew.ne_root disk _

/-- A second name for a file is refused as taken only where a walk arrives at something. -/
theorem taken_of_link (hpath : path.EndsInName) (hnew : new.EndsInName)
    (hfile : disk.tree.get? (disk.site path) = some (.file contents))
    (hreply : (disk.answer (.link path new)).1 = .error .alreadyExists) :
    (disk.answer (.link path new)).2 = disk ∧ (Request.link path new).hasNul = false ∧
      disk.tree.get? (disk.site new) ≠ none ∧ ∃ place, disk.place false new = .ok place := by
  obtain ⟨hnul, hserve⟩ := answer_of_error hreply (by decide)
  rw [hserve] at hreply ⊢
  obtain ⟨htree, hafter⟩ := update_eq_error hreply
  refine ⟨hafter, hnul, ?_⟩
  obtain ⟨names, name, hway, hup⟩ := hpath
  unfold link at htree
  cases hold : disk.place path.endsInSlash path with
  | error fault =>
    rw [hold] at htree
    obtain rfl : fault = .alreadyExists := Except.error.inj htree
    exact absurd hold (place_ne_alreadyExists disk _ path)
  | ok old =>
    obtain ⟨-, hentry, -, -⟩ := place_of_way h hway hup hold
    simp only [hold, bind, Except.bind, hentry, hfile] at htree
    split at htree
    · cases htree
    · cases hvacant : disk.vacancy false new with
      | error fault =>
        rw [hvacant] at htree
        obtain rfl : fault = .alreadyExists := Except.error.inj htree
        exact vacancy_taken h hnew hvacant
      | ok location => simp [hvacant] at htree

theorem turns_of_remove (hpath : path.EndsInName) (hopen : path.endsInSlash = false)
    (hfile : disk.tree.get? (disk.site path) = some (.file contents))
    (hnul : (Request.remove path).hasNul = false) {place : Place}
    (hplace : disk.place false path = .ok place) :
    Turns (disk.site path) none disk (disk.answer (.remove path)).2 := by
  have hroot := site_ne_nil h hpath
  obtain ⟨names, name, hway, hup⟩ := hpath
  obtain ⟨hlocation, hentry, hslash, -⟩ := place_of_way h hway hup hplace
  have hremove : disk.remove path = .ok (disk.tree.erase (disk.site path)) := by
    unfold remove
    simp only [hplace, bind, Except.bind, hentry, hfile, hslash, hopen, hlocation, Bool.false_eq_true,
      if_false]
  rw [answer_of_not_nul hnul]
  change Turns _ _ disk (disk.update (disk.remove path)).2
  rw [hremove]
  exact turns_erase hroot disk

theorem turns_of_rename (hpath : path.EndsInName) (hnew : new.EndsInName)
    (hfile : disk.tree.get? (disk.site path) = some (.file contents))
    (hreply : (disk.answer (.rename path new)).1 = .ok ()) :
    disk.tree.get? (disk.site new) ≠ some .directory ∧
      ∃ between, Turns (disk.site path) none disk between ∧
        Turns (disk.site new) (some (.file contents)) between (disk.answer (.rename path new)).2 := by
  obtain ⟨-, hserve⟩ := answer_of_ok hreply
  rw [hserve] at hreply ⊢
  obtain ⟨tree, htree, hafter⟩ := update_eq_ok hreply
  obtain ⟨old, hold, htree⟩ := bind_eq_ok.1 htree
  obtain ⟨target, htarget, hset⟩ := bind_eq_ok.1 htree
  have hroot := site_ne_nil h hpath
  have hnewRoot := site_ne_nil h hnew
  obtain ⟨names, name, hway, hup⟩ := hpath
  obtain ⟨newNames, newName, hnewWay, hnewUp⟩ := hnew
  obtain ⟨hlocation, hentry, -, -⟩ := place_of_way h hway hup hold
  obtain ⟨htargetLocation, htargetEntry, -, -⟩ := place_of_way h hnewWay hnewUp htarget
  rw [hlocation, htargetLocation, hentry, htargetEntry, hfile] at hset
  simp only at hset
  split at hset
  · cases hset
  · split at hset
    · cases hset
    · split at hset
      · cases hset
      · next hdirectory =>
        obtain rfl := Except.ok.inj hset
        refine ⟨hdirectory, { disk with tree := disk.tree.erase (disk.site path) },
          turns_erase hroot disk, ?_⟩
        change Turns _ _ _ (disk.update (disk.rename path new)).2
        rw [hafter]
        exact turns_set hnewRoot _ _

/-- What is found by asking for it is there. -/
theorem get?_of_exists (hpath : path.EndsInName)
    (hfound : ((Session.exists? path).run disk).1 = true) : disk.tree.get? (disk.site path) ≠ none := by
  rw [Delivery.run_exists?_fst] at hfound
  cases hreply : (disk.answer (.probe path)).1 with
  | error fault => simp [hreply] at hfound
  | ok directory =>
    obtain ⟨-, hserve⟩ := answer_of_ok hreply
    rw [hserve] at hreply
    obtain ⟨entry, hentry, -⟩ := bind_eq_ok.1 hreply
    obtain ⟨place, hplace, hmet⟩ := bind_eq_ok.1 hentry
    obtain ⟨names, name, hway, hup⟩ := hpath
    obtain ⟨-, hplaceEntry, -, -⟩ := place_of_way h hway hup hplace
    intro hnone
    rw [hplaceEntry, hnone] at hmet
    cases hmet

/-- What is there and is not found although a walk arrives at it is a file that is asked for with a slash at
the end. -/
theorem endsInSlash_of_not_exists (hpath : path.EndsInName) (hnul : (Request.probe path).hasNul = false)
    (hmissed : ((Session.exists? path).run disk).1 = false)
    (hthere : disk.tree.get? (disk.site path) ≠ none) {place : Place}
    (hplace : disk.place true path = .ok place) : path.endsInSlash = true := by
  obtain ⟨names, name, hway, hup⟩ := hpath
  obtain ⟨-, hentry, hslash, -⟩ := place_of_way h hway hup hplace
  obtain ⟨entry, hget⟩ := Option.ne_none_iff_exists'.1 hthere
  rw [hget] at hentry
  by_contra hopen
  have hopen : place.endsInSlash = false := by rw [hslash]; simpa using hopen
  have hmet : disk.entry path = .ok entry := by
    simp only [Disk.entry, hplace, bind, Except.bind, hentry, hopen, Bool.false_eq_true, if_false]
    cases entry <;> rfl
  have hfound : (disk.answer (.probe path)).1 = .ok (decide (entry = .directory)) := by
    rw [answer_of_not_nul hnul]
    simp only [serve, probe, hmet, bind, Except.bind, pure, Except.pure]
  rw [Delivery.run_exists?_fst, hfound] at hmissed
  cases hmissed

/-- What a walk arrives at and is not found is no directory. -/
theorem ne_directory_of_not_exists (hpath : path.EndsInName) (hnul : (Request.probe path).hasNul = false)
    (hmissed : ((Session.exists? path).run disk).1 = false) {place : Place}
    (hplace : disk.place true path = .ok place) : disk.tree.get? (disk.site path) ≠ some .directory := by
  intro hdirectory
  obtain ⟨names, name, hway, hup⟩ := hpath
  obtain ⟨-, hentry, -, -⟩ := place_of_way h hway hup hplace
  rw [hdirectory] at hentry
  have hfound : (disk.answer (.probe path)).1 = .ok true := by
    rw [answer_of_not_nul hnul]
    simp [serve, probe, entry, hplace, hentry, bind, Except.bind, pure, Except.pure]
  rw [Delivery.run_exists?_fst, hfound] at hmissed
  cases hmissed

end Requests

end Disk

/-- What stands at the place of a file once it has been delivered. -/
def Artifact.settle (occupant? : Option Entry) (artifact : Artifact) : Option Entry :=
  match artifact.policy with
  | .skipIfExists => occupant? <|> some (.file artifact.contents)
  | .overwrite => some (.file artifact.contents)

/-- What has become of a tree when a file has been delivered to a place, by way of a temporary file. -/
inductive Effect (artifact : Artifact) (place temporary : Location)
    (before after : Location → Option Entry) : Outcome → Prop where
  | written (vacant : artifact.policy = .skipIfExists → before place = none)
      (place_free : before place ≠ some .directory) (temporary_free : before temporary ≠ some .directory)
      (get? : after = Function.update (Function.update before temporary none) place
        (some (.file artifact.contents))) :
      Effect artifact place temporary before after .written
  /-- What is there is left alone. -/
  | left (skip : artifact.policy = .skipIfExists) (there : before place ≠ none) (get? : after = before) :
      Effect artifact place temporary before after .skipped
  /-- A file that is asked for with a slash at the end is not found, and is in the way all the same. By then
  the temporary file has been written, and it is taken away again. -/
  | cleared (skip : artifact.policy = .skipIfExists) (slash : artifact.path.endsInSlash = true)
      (there : before place ≠ none) (temporary_free : before temporary ≠ some .directory)
      (get? : after = Function.update before temporary none) :
      Effect artifact place temporary before after .skipped

namespace Effect

variable {artifact : Artifact} {place temporary location : Location}
  {before after : Location → Option Entry} {outcome : Outcome}

/-- What a delivery does to all places but its two: nothing. -/
theorem other (h : Effect artifact place temporary before after outcome) (hplace : location ≠ place)
    (htemporary : location ≠ temporary) : after location = before location := by
  cases h with
  | written vacant place_free temporary_free get? =>
    rw [get?, Function.update_of_ne hplace, Function.update_of_ne htemporary]
  | left skip there get? => rw [get?]
  | cleared skip slash there temporary_free get? => rw [get?, Function.update_of_ne htemporary]

/-- What it does to the place of the file, and how that is reported. -/
theorem at_place (h : Effect artifact place temporary before after outcome) (hne : place ≠ temporary) :
    after place = artifact.settle (before place) ∧ outcome ≠ .planned ∧
      (outcome = .written ↔ artifact.policy = .overwrite ∨ before place = none) := by
  cases h with
  | written vacant place_free temporary_free get? =>
    rw [get?, Function.update_self, Artifact.settle]
    cases hpolicy : artifact.policy with
    | skipIfExists =>
      rw [vacant hpolicy]
      simp
    | overwrite => simp
  | left skip there get? =>
    obtain ⟨entry, hentry⟩ := Option.ne_none_iff_exists'.1 there
    rw [get?, Artifact.settle, skip, hentry]
    simp
  | cleared skip slash there temporary_free get? =>
    obtain ⟨entry, hentry⟩ := Option.ne_none_iff_exists'.1 there
    rw [get?, Function.update_of_ne hne, Artifact.settle, skip, hentry]
    simp

/-- What it does to the place of the temporary file. -/
theorem at_temporary (h : Effect artifact place temporary before after outcome) (hne : place ≠ temporary) :
    (after temporary = before temporary ∨ after temporary = none) ∧
      (outcome = .written → after temporary = none) ∧
      (outcome ≠ .written → artifact.path.endsInSlash = false → after temporary = before temporary) := by
  cases h with
  | written vacant place_free temporary_free get? =>
    rw [get?, Function.update_of_ne hne.symm, Function.update_self]
    simp
  | left skip there get? =>
    rw [get?]
    simp
  | cleared skip slash there temporary_free get? =>
    rw [get?, Function.update_self]
    simp [slash]

theorem directory (h : Effect artifact place temporary before after outcome)
    (hdirectory : before location = some .directory) : after location = some .directory := by
  cases h with
  | written vacant place_free temporary_free get? =>
    have hplace : location ≠ place := by
      rintro rfl
      exact place_free hdirectory
    have htemporary : location ≠ temporary := by
      rintro rfl
      exact temporary_free hdirectory
    rw [get?, Function.update_of_ne hplace, Function.update_of_ne htemporary, hdirectory]
  | left skip there get? => rw [get?, hdirectory]
  | cleared skip slash there temporary_free get? =>
    have htemporary : location ≠ temporary := by
      rintro rfl
      exact temporary_free hdirectory
    rw [get?, Function.update_of_ne htemporary, hdirectory]

theorem linkless {tree later : FileTree}
    (h : Effect artifact place temporary tree.get? later.get? outcome) (hlinks : tree.Linkless) :
    later.Linkless := by
  have horigin (location : Location) : later.get? location = tree.get? location ∨
      later.get? location = none ∨ later.get? location = some (.file artifact.contents) := by
    cases h with
    | written vacant place_free temporary_free get? =>
      rw [get?, Function.update_apply, Function.update_apply]
      split
      · exact Or.inr (Or.inr rfl)
      · split
        · exact Or.inr (Or.inl rfl)
        · exact Or.inl rfl
    | left skip there get? =>
      rw [get?]
      exact Or.inl rfl
    | cleared skip slash there temporary_free get? =>
      rw [get?, Function.update_apply]
      split
      · exact Or.inr (Or.inl rfl)
      · exact Or.inl rfl
  intro location
  rw [FileTree.link?]
  rcases horigin location with hsame | hnone | hfile
  · rw [hsame]
    exact hlinks location
  · rw [hnone]
    rfl
  · rw [hfile]
    rfl

end Effect

namespace Delivery

open Disk

section Files

variable {disk : Disk} (h : disk.tree.Linkless) {artifact : Artifact} {target : Path}
  (htarget : target.EndsInName) (hstaging : (staging target).EndsInName)
  (hne : disk.site (staging target) ≠ disk.site target)

section Staged

variable {written : Disk}
  (hstaged : Turns (disk.site (staging target)) (some (.file artifact.contents)) disk written)
  (hfree : disk.tree.get? (disk.site (staging target)) ≠ some .directory)
  (hnul : (Request.write (staging target) artifact.contents).hasNul = false) {follow : Bool} {place : Place}
  (hplace : disk.place follow (staging target) = .ok place)
  (hopen : (staging target).endsInSlash = false) (hpolicy : artifact.policy = .skipIfExists)

include h hstaging hne hstaged hfree hnul hplace hopen

/-- The temporary file has got the name of the target and is taken away. -/
theorem effect_of_linked (hreply : (written.answer (.link (staging target) target)).1 = .ok ()) :
    let linked := (written.answer (.link (staging target) target)).2
    let removed := (linked.answer (.remove (staging target))).2
    Effect artifact (disk.site target) (disk.site (staging target)) disk.tree.get? removed.tree.get?
      .written ∧ removed.here = disk.here := by
  intro linked removed
  have hlinks := hstaged.linkless h rfl
  have hsite (path : Path) := site_congr h hlinks hstaged.here path
  have hfile : written.tree.get? (written.site (staging target)) = some (.file artifact.contents) := by
    rw [hsite, hstaged.self]
  obtain ⟨hlinked, hvacant⟩ := turns_of_link hlinks hstaging hfile hreply
  rw [hsite] at hlinked hvacant
  rw [hstaged.other hne.symm] at hvacant
  have hlinkedLinks : linked.tree.Linkless := hlinked.linkless hlinks rfl
  have hhere : linked.here = disk.here := hlinked.here.trans hstaged.here
  have hlinkedSite (path : Path) : linked.site path = disk.site path :=
    site_congr h hlinkedLinks hhere path
  have hlinkedFile : linked.tree.get? (linked.site (staging target)) = some (.file artifact.contents) := by
    rw [hlinkedSite, hlinked.other hne, hstaged.self]
  obtain ⟨again, hagain⟩ : ∃ again, linked.place false (staging target) = .ok again := by
    obtain ⟨names, name, hway, hup⟩ := hstaging
    refine place_again h hlinkedLinks hhere ?_ hway hup hplace
    intro location hdirectory
    refine hlinked.directory ?_ location (hstaged.directory hfree location hdirectory)
    rw [hstaged.other hne.symm, hvacant]
    simp
  have hremoved : Turns (linked.site (staging target)) none linked removed :=
    turns_of_remove hlinkedLinks hstaging hopen hlinkedFile hnul hagain
  rw [hlinkedSite] at hremoved
  refine ⟨.written (fun _ => hvacant) ?_ hfree ?_, hremoved.here.trans hhere⟩
  · rw [hvacant]
    simp
  · rw [hremoved.get?, hlinked.get?, hstaged.get?, Function.update_comm hne, Function.update_idem,
      Function.update_comm hne.symm]

include htarget in
/-- The target is taken by a file that is not found, and the temporary file is taken away again. -/
theorem refused_of_link (hmissed : ((Session.exists? target).run disk).1 = false)
    (hreply : (written.answer (.link (staging target) target)).1 = .error .alreadyExists) :
    (written.answer (.link (staging target) target)).2 = written ∧ target.endsInSlash = true ∧
      disk.tree.get? (disk.site target) ≠ none ∧ disk.tree.get? (disk.site target) ≠ some .directory ∧
      Turns (disk.site (staging target)) none disk (written.answer (.remove (staging target))).2 := by
  have hlinks := hstaged.linkless h rfl
  have hsite (path : Path) := site_congr h hlinks hstaged.here path
  have hfile : written.tree.get? (written.site (staging target)) = some (.file artifact.contents) := by
    rw [hsite, hstaged.self]
  obtain ⟨hsame, hlinkNul, hthere, found, hfound⟩ := taken_of_link hlinks hstaging htarget hfile hreply
  rw [hsite, hstaged.other hne.symm] at hthere
  have hprobe : (Request.probe target).hasNul = false := by
    simp only [Request.hasNul, Request.paths, List.any_cons, List.any_nil, Bool.or_false,
      Bool.or_eq_false_iff] at hlinkNul ⊢
    exact hlinkNul.2
  obtain ⟨earlier, hearlier⟩ : ∃ earlier, disk.place true target = .ok earlier := by
    obtain ⟨names, name, hway, hup⟩ := htarget
    refine place_again hlinks h hstaged.here.symm ?_ hway hup hfound
    exact hstaged.directory_before (by simp)
  obtain ⟨again, hagain⟩ : ∃ again, written.place false (staging target) = .ok again := by
    obtain ⟨names, name, hway, hup⟩ := hstaging
    exact place_again h hlinks hstaged.here (hstaged.directory hfree) hway hup hplace
  have hremoved := turns_of_remove hlinks hstaging hopen hfile hnul hagain
  rw [hsite] at hremoved
  refine ⟨hsame, endsInSlash_of_not_exists h htarget hprobe hmissed hthere hearlier, hthere,
    ne_directory_of_not_exists h htarget hprobe hmissed hearlier, hremoved.here.trans hstaged.here, ?_⟩
  rw [hremoved.get?, hstaged.get?, Function.update_idem]

include htarget in
/-- So nothing but the temporary file has changed. -/
theorem effect_of_refused (hpolicy : artifact.policy = .skipIfExists)
    (hslash : target.endsInSlash = artifact.path.endsInSlash)
    (hmissed : ((Session.exists? target).run disk).1 = false)
    (hreply : (written.answer (.link (staging target) target)).1 = .error .alreadyExists) :
    let removed := (written.answer (.remove (staging target))).2
    (written.answer (.link (staging target) target)).2 = written ∧
      Effect artifact (disk.site target) (disk.site (staging target)) disk.tree.get? removed.tree.get?
        .skipped ∧ removed.here = disk.here := by
  intro removed
  obtain ⟨hsame, hends, hthere, -, hremoved⟩ :=
    refused_of_link h htarget hstaging hne hstaged hfree hnul hplace hopen hmissed hreply
  exact ⟨hsame, .cleared hpolicy (hslash ▸ hends) hthere hfree hremoved.get?, hremoved.here⟩

include htarget in
/-- All that comes after the temporary file has been written. The reply to the link decides what becomes of
the target; the temporary file is removed either way. -/
theorem effect_of_staged (hpolicy : artifact.policy = .skipIfExists)
    (hslash : target.endsInSlash = artifact.path.endsInSlash)
    (hmissed : ((Session.exists? target).run disk).1 = false) {rest : Attempt Outcome} {outcome : Outcome}
    (hrest : rest = do
      let linked ← Session.send (.link (staging target) target)
      let _ ← Session.send (.remove (staging target))
      match linked with
      | .ok () => return .written
      | .error .alreadyExists => return .skipped
      | .error fault => throw ⟨target, fault⟩)
    (hdone : (played rest written).1 = .ok outcome) :
    Effect artifact (disk.site target) (disk.site (staging target)) disk.tree.get?
        (played rest written).2.tree.get? outcome ∧
      (played rest written).2.here = disk.here := by
  subst hrest
  obtain ⟨linked, hlinked, hdone, hafter⟩ := played_bind_ok hdone
  rw [hafter]
  rw [played_session, run_send] at hlinked hdone ⊢
  obtain rfl : (written.answer (.link (staging target) target)).1 = linked := Except.ok.inj hlinked
  obtain ⟨removed, -, hdone, hafter⟩ := played_bind_ok hdone
  rw [hafter]
  rw [played_session, run_send] at hdone ⊢
  generalize hreply : (written.answer (.link (staging target) target)).1 = reply at hdone ⊢
  split at hdone
  · obtain rfl := Except.ok.inj hdone
    -- the pair has to be taken apart, or the two sides are compared by running the requests
    dsimp only [played_pure]
    exact effect_of_linked h hstaging hne hstaged hfree hnul hplace hopen hreply
  · obtain rfl := Except.ok.inj hdone
    obtain ⟨hsame, heffect⟩ := effect_of_refused h htarget hstaging hne hstaged hfree hnul hplace hopen
      hpolicy hslash hmissed hreply
    dsimp only [played_pure]
    rw [hsame]
    exact heffect
  · cases hdone

end Staged

include h htarget hstaging hne

theorem effect_of_writeNew (hopen : (staging target).endsInSlash = false)
    (hslash : target.endsInSlash = artifact.path.endsInSlash) (hpolicy : artifact.policy = .skipIfExists)
    {outcome : Outcome} (hdone : (played (writeNew target artifact.contents) disk).1 = .ok outcome) :
    Effect artifact (disk.site target) (disk.site (staging target)) disk.tree.get?
        (played (writeNew target artifact.contents) disk).2.tree.get? outcome ∧
      (played (writeNew target artifact.contents) disk).2.here = disk.here := by
  unfold writeNew at hdone ⊢
  obtain ⟨found, hfound, hdone, hafter⟩ := played_bind_ok hdone
  rw [hafter]
  rw [played_session, run_exists?] at hdone ⊢
  rw [played_session] at hfound
  obtain rfl : ((Session.exists? target).run disk).1 = found := Except.ok.inj hfound
  cases hthere : ((Session.exists? target).run disk).1 with
  | true =>
    simp only [hthere, if_true] at hdone ⊢
    obtain rfl := Except.ok.inj hdone
    exact ⟨.left hpolicy (get?_of_exists h htarget hthere) rfl, rfl⟩
  | false =>
    simp only [hthere, Bool.false_eq_true, if_false] at hdone ⊢
    obtain ⟨_, hwrite, hdone, hafter⟩ := played_bind_ok hdone
    rw [hafter]
    obtain ⟨hwritten, hdisk⟩ := reply_of_request hwrite
    rw [hdisk] at hdone ⊢
    obtain ⟨hstaged, hfree, hnul, follow, place, hplace⟩ := turns_of_write h hstaging hwritten
    generalize (disk.answer (.write (staging target) artifact.contents)).2 = written at *
    exact effect_of_staged h htarget hstaging hne hstaged hfree hnul hplace hopen hpolicy hslash hthere rfl
      hdone

theorem effect_of_replace (hpolicy : artifact.policy = .overwrite) {outcome : Outcome}
    (hdone : (played (replace target artifact.contents) disk).1 = .ok outcome) :
    Effect artifact (disk.site target) (disk.site (staging target)) disk.tree.get?
        (played (replace target artifact.contents) disk).2.tree.get? outcome ∧
      (played (replace target artifact.contents) disk).2.here = disk.here := by
  unfold replace at hdone ⊢
  obtain ⟨_, hwrite, hdone, hafter⟩ := played_bind_ok hdone
  rw [hafter]
  obtain ⟨_, hrename, hdone, hafter⟩ := played_bind_ok hdone
  rw [hafter]
  obtain ⟨hwritten, hdisk⟩ := reply_of_request hwrite
  rw [hdisk] at hrename hdone ⊢
  obtain ⟨hrenamed, hlast⟩ := reply_of_request hrename
  rw [hlast] at hdone ⊢
  obtain rfl := Except.ok.inj hdone
  rw [played_pure]
  obtain ⟨hstaged, hfree, -, -⟩ := turns_of_write h hstaging hwritten
  generalize (disk.answer (.write (staging target) artifact.contents)).2 = written at *
  have hlinks := hstaged.linkless h rfl
  have hsite (path : Path) := site_congr h hlinks hstaged.here path
  have hfile : written.tree.get? (written.site (staging target)) = some (.file artifact.contents) := by
    rw [hsite, hstaged.self]
  obtain ⟨hplaceFree, between, hgone, hput⟩ := turns_of_rename hlinks hstaging htarget hfile hrenamed
  rw [hsite] at hplaceFree hput hgone
  rw [hstaged.other hne.symm] at hplaceFree
  refine ⟨.written ?_ hplaceFree hfree ?_, ?_⟩
  · intro hskip
    rw [hpolicy] at hskip
    cases hskip
  · rw [hput.get?, hgone.get?, hstaged.get?, Function.update_idem]
  · rw [hput.here, hgone.here, hstaged.here]

omit h htarget hstaging hne in
/-- A file is replaced only where its temporary file can be put. -/
theorem place_of_replace {contents : String} {outcome : Outcome}
    (hdone : (played (replace target contents) disk).1 = .ok outcome) :
    ∃ follow place, disk.place follow (staging target) = .ok place := by
  unfold replace at hdone
  obtain ⟨_, hwrite, -, -⟩ := played_bind_ok hdone
  obtain ⟨hwritten, -⟩ := reply_of_request hwrite
  obtain ⟨-, hserve⟩ := answer_of_ok hwritten
  rw [hserve] at hwritten
  obtain ⟨tree, htree, -⟩ := update_eq_ok hwritten
  obtain ⟨place, hplace, -⟩ := bind_eq_ok.1 htree
  exact ⟨_, place, hplace⟩

/-- Whatever the policy says is to be done. -/
theorem effect_of_attempt (hopen : (staging target).endsInSlash = false)
    (hslash : target.endsInSlash = artifact.path.endsInSlash) {attempt : Attempt Outcome}
    (hattempt : attempt = match artifact.policy with
      | .skipIfExists => writeNew target artifact.contents
      | .overwrite => replace target artifact.contents)
    {outcome : Outcome} (hdone : (played attempt disk).1 = .ok outcome) :
    Effect artifact (disk.site target) (disk.site (staging target)) disk.tree.get?
        (played attempt disk).2.tree.get? outcome ∧ (played attempt disk).2.here = disk.here := by
  cases hpolicy : artifact.policy with
  | skipIfExists =>
    obtain rfl : attempt = writeNew target artifact.contents := by rw [hattempt, hpolicy]
    exact effect_of_writeNew h htarget hstaging hne hopen hslash hpolicy hdone
  | overwrite =>
    obtain rfl : attempt = replace target artifact.contents := by rw [hattempt, hpolicy]
    exact effect_of_replace h htarget hstaging hne hpolicy hdone

end Files

end Delivery

/-- The place of the temporary file beside a place. -/
def beside (location : Location) : Location :=
  location.dropLast ++ ["." ++ location.getLastD "" ++ ".tmp"]

theorem beside_concat (above : Location) (name : String) :
    beside (above ++ [name]) = above ++ ["." ++ name ++ ".tmp"] := by
  simp [beside]

theorem beside_ne {location : Location} (hne : location ≠ []) : beside location ≠ location := by
  obtain ⟨above, name, rfl⟩ : ∃ above name, location = above ++ [name] :=
    ⟨_, _, (List.dropLast_append_getLast hne).symm⟩
  rw [beside_concat]
  intro hsame
  obtain ⟨-, hlast⟩ := List.append_inj' hsame rfl
  have hlength := congrArg String.length (List.singleton_inj.1 hlast)
  simp only [String.length_append] at hlength
  have hdot : ".".length = 1 := by decide
  omega

namespace Destination

open Delivery Disk

variable {destination : Destination} {disk : Disk} (h : disk.tree.Linkless) {artifact : Artifact}
  {root path : Path}

include h

theorem site_join (hpath : path.Descends) : disk.site (root.join path) = disk.site root ++ path.way :=
  site_join_of_plain (fun _ => h _) hpath

omit h in
/-- The temporary file of a path that leads down from a root starts where the root does. -/
theorem way_staging_join (root : Path) (hpath : path.Descends) {names : List String} {name : String}
    (hway : path.way = names ++ [name]) :
    (staging (root.join path)).way = root.way ++ names ++ ["." ++ name ++ ".tmp"] ∧
      (staging (root.join path)).endsInSlash = false ∧
      ∀ here, FileTree.startOf (staging (root.join path)) here = FileTree.startOf root here := by
  have hmem : name ∈ path.way := by simp [hway]
  have hslash : '/' ∉ name.toList := Path.not_mem_of_mem_parts (List.mem_filter.1 hmem).1
  have hwhole : (root.join path).way = root.way ++ names ++ [name] := by
    rw [Path.way_join hpath.relative, hway, List.append_assoc]
  obtain ⟨parent, hstaging, hparentWay, habsolute, -⟩ :=
    staging_eq hwhole (hpath.isName_of_mem_way hmem).ne_up
  rw [Path.isAbsolute_join hpath.relative] at habsolute
  obtain ⟨hproper, htemporary⟩ := isProper_temporary hslash
  refine ⟨?_, ?_, ?_⟩
  · rw [hstaging, Path.way_join hproper.isAbsolute_eq, hparentWay, hproper.way_eq, htemporary]
  · rw [hstaging, Path.endsInSlash_join hproper.isAbsolute_eq hproper.text_ne_empty,
      hproper.endsInSlash_eq]
  · intro here
    rw [hstaging, startOf_join hproper.isAbsolute_eq, FileTree.startOf_congr habsolute]

/-- The temporary file of a path that leads down from a root. -/
theorem staging_join (root : Path) (hpath : path.Descends) :
    (root.join path).EndsInName ∧ (staging (root.join path)).EndsInName ∧
      (staging (root.join path)).endsInSlash = false ∧
      disk.site (staging (root.join path)) = beside (disk.site (root.join path)) := by
  obtain ⟨names, name, hway, hnames, hname⟩ := hpath.exists_way
  have hwhole : (root.join path).way = root.way ++ names ++ [name] := by
    rw [Path.way_join hpath.relative, hway, List.append_assoc]
  obtain ⟨hstagingWay, hopen, hstart⟩ := way_staging_join root hpath hway
  have hup := (isName_temporary name).ne_up
  refine ⟨⟨_, name, hwhole, hname.ne_up⟩, ⟨_, _, hstagingWay, hup⟩, hopen, ?_⟩
  rw [site_of_way h hstagingWay hup, site_of_way h hwhole hname.ne_up, beside_concat, hstart,
    startOf_join hpath.relative]

omit h in
/-- A file that does not fail is written after the directories it lies in have been made. -/
theorem write_eq_ok (hreal : destination.dryRun = false) {outcome : Outcome}
    (hdone : (played (destination.write artifact) disk).1 = .ok outcome) :
    let target := destination.root.join artifact.path
    let opened := (played (makeParent target) disk).2
    let attempt := match artifact.policy with
      | .skipIfExists => writeNew target artifact.contents
      | .overwrite => replace target artifact.contents
    (played attempt opened).1 = .ok outcome ∧
      (played (destination.write artifact) disk).2 = (played attempt opened).2 := by
  intro target opened attempt
  unfold Destination.write at hdone ⊢
  simp only [hreal, Bool.false_eq_true, if_false] at hdone ⊢
  obtain ⟨made, -, hdone, hafter⟩ := played_bind_ok hdone
  exact ⟨hdone, hafter⟩

/-- What a single file does to the disk, if it does not fail. -/
theorem effect_of_write (hreal : destination.dryRun = false) (hpath : artifact.path.Descends)
    {outcome : Outcome} (hdone : (played (destination.write artifact) disk).1 = .ok outcome) :
    let target := destination.root.join artifact.path
    let later := (played (destination.write artifact) disk).2
    later.here = disk.here ∧ ∃ opened, Opens (disk.Above target) disk opened ∧
      Effect artifact (disk.site target) (beside (disk.site target)) opened.tree.get? later.tree.get?
        outcome ∧
      (artifact.policy = .overwrite → ∃ follow place, opened.place follow (staging target) = .ok place) := by
  intro target later
  obtain ⟨htarget, hstaging, hopen, hbeside⟩ := staging_join h destination.root hpath
  have hslash : target.endsInSlash = artifact.path.endsInSlash :=
    Path.endsInSlash_join hpath.relative hpath.text_ne_empty
  have hopens : Opens (disk.Above target) disk (played (makeParent target) disk).2 :=
    (opens_makeParent disk target).mono fun _ hnone hmakes => hmakes.above hnone
  obtain ⟨hplayed, hlater⟩ := write_eq_ok hreal hdone
  dsimp only [later]
  rw [hlater]
  generalize (played (makeParent target) disk).2 = opened at hopens hplayed ⊢
  have hlinks : opened.tree.Linkless := hopens.linkless h
  have hsite (path : Path) : opened.site path = disk.site path := site_congr h hlinks hopens.here path
  have hne : opened.site (staging target) ≠ opened.site target := by
    rw [hsite, hsite, hbeside]
    exact beside_ne (site_ne_nil h htarget)
  obtain ⟨heffect, hhere⟩ := effect_of_attempt hlinks htarget hstaging hne hopen hslash rfl hplayed
  rw [hsite, hsite, hbeside] at heffect
  refine ⟨hhere.trans hopens.here, opened, hopens, heffect, ?_⟩
  intro hpolicy
  rw [hpolicy] at hplayed
  exact place_of_replace hplayed

/-- Where the temporary file of a path can be put, the path lies in directories from the root on. -/
theorem directory_of_staging {root : Path} (hpath : path.Descends) {follow : Bool} {place : Place}
    (hplace : disk.place follow (staging (root.join path)) = .ok place) {below : Location}
    (hne : below ≠ []) (hbegins : below <+: path.way) (hshort : below ≠ path.way) :
    disk.tree.get? (disk.site root ++ below) = some .directory := by
  obtain ⟨names, name, hway, hnames, -⟩ := hpath.exists_way
  obtain ⟨hstagingWay, -, hstart⟩ := way_staging_join root hpath hway
  obtain ⟨between, last, rfl⟩ : ∃ between last, below = between ++ [last] :=
    ⟨_, _, (List.dropLast_append_getLast hne).symm⟩
  obtain ⟨rest, hrest⟩ : between ++ [last] <+: names := by
    rw [hway] at hbegins hshort
    exact (List.prefix_concat_iff.1 hbegins).resolve_left hshort
  have hwhole : (staging (root.join path)).way =
      (root.way ++ between) ++ last :: (rest ++ ["." ++ name ++ ".tmp"]) := by
    rw [hstagingWay, ← hrest]
    simp
  have hbetween (part : String) (hpart : part ∈ between ++ [last]) : IsName part := by
    apply hnames
    rw [← hrest]
    exact List.mem_append_left rest hpart
  have hdirectory := directory_of_place h hwhole (by simp) (hbetween last (by simp)).ne_up hplace
  rw [hstart, FileTree.reach_append,
    FileTree.reach_names fun part hpart => hbetween part (List.mem_append_left _ hpart)] at hdirectory
  rw [site_eq_reach h, ← List.append_assoc, hdirectory]

end Destination

end EntityForge
