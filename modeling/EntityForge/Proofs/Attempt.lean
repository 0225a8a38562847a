import EntityForge.Proofs.Frame

/-!
What comes of an attempt to put a file in its place, on any disk.

There may be links anywhere but at the place of the temporary file. A file takes its place whole or not at all;
if it does not, nothing has changed, or the temporary file has come and gone. Only where a file that is to replace
what is there is refused its place, the temporary file stays. Main statement: `upshot_of_attempt`.
-/

namespace EntityForge

namespace Path

variable {path parent : Path}

theorem mem_parts_of_fileName? {name : String} (h : path.fileName? = some name) : name ∈ path.parts := by
  obtain ⟨first, others, hends⟩ : ∃ first others, path.ends = (first, others) := ⟨_, _, rfl⟩
  simp only [fileName?, hends] at h
  split at h
  · cases h
  · rw [parts_of_ends hends, ← Option.some.inj h]
    cases hlast : (others.dropWhile isIdle).head? with
    | none => exact List.mem_cons_self
    | some last =>
      have hmem : last ∈ others := (List.dropWhile_suffix _).subset (List.mem_of_mem_head? hlast)
      exact List.mem_cons_of_mem _ (List.mem_reverse.2 hmem)

end Path

namespace Disk

variable {disk : Disk} {path new : Path} {location place : Location} {contents : String}

namespace EndsAt

theorem unique {other : Location} (h : disk.EndsAt path location) (hother : disk.EndsAt path other) :
    other = location := by
  obtain ⟨names, name, hway, -, rfl⟩ := h
  obtain ⟨names', name', hway', -, rfl⟩ := hother
  obtain ⟨rfl, rfl⟩ := List.append_singleton_inj.1 (hway.symm.trans hway')
  rfl

theorem leads (h : disk.EndsAt path location) (hends : path.EndsInWay) (hopen : path.endsInSlash = false)
    (hlink : disk.tree.link? location = none) : disk.Leads path location := by
  obtain ⟨names, name, hway, hup, rfl⟩ := h
  obtain ⟨before, hsteps, rfl⟩ := hends.steps_eq hway
  have hname : IsName name := Path.isName_of_mem_way (show name ∈ path.way by simp [hway]) hup
  exact ⟨⟨before, name, hname, hsteps, by rw [FileTree.landing_filter]⟩, hopen, hlink⟩

/-- A walk along a path at whose end nothing stands ends there. -/
theorem place_of_vacant (h : disk.EndsAt path location) (hnone : disk.tree.get? location = none) {follow : Bool}
    {found : Place} (hplace : disk.place follow path = .ok found) :
    found = ⟨location, none, true, path.endsInSlash⟩ := by
  obtain ⟨names, name, hway, hup, rfl⟩ := h
  obtain ⟨hhere, before, after, hsteps, -, rfl⟩ := Path.steps_of_way hway
  rw [FileTree.landing_filter] at hnone ⊢
  unfold Disk.place FileTree.place at hplace
  split at hplace
  · cases hplace
  · split at hplace
    · cases hplace
    · rw [hsteps] at hplace
      exact (FileTree.walk_vacant hplace hhere hup hnone).2

theorem get?_of_exists (h : disk.EndsAt path location)
    (hfound : ((Session.exists? path).run disk).1 = true) : disk.tree.get? location ≠ none := by
  rw [Delivery.run_exists?_fst] at hfound
  intro hnone
  cases hreply : (disk.answer (.probe path)).1 with
  | error fault => simp [hreply] at hfound
  | ok directory =>
    obtain ⟨-, hserve⟩ := answer_of_ok hreply
    rw [hserve] at hreply
    obtain ⟨entry, hentry, -⟩ := bind_eq_ok.1 hreply
    obtain ⟨found, hplace, hmet⟩ := bind_eq_ok.1 hentry
    rw [h.place_of_vacant hnone hplace] at hmet
    cases hmet

/-- A place counts as taken only where something stands. -/
theorem get?_of_taken (h : disk.EndsAt path location) {directory : Bool}
    (htaken : disk.vacancy directory path = .error .alreadyExists) : disk.tree.get? location ≠ none := by
  intro hnone
  cases hplace : disk.place false path with
  | error fault =>
    have hfault : fault = .alreadyExists := by simpa [vacancy, hplace, bind, Except.bind] using htaken
    exact absurd (hfault ▸ hplace) (place_ne_alreadyExists disk false path)
  | ok found =>
    obtain rfl := h.place_of_vacant hnone hplace
    simp only [vacancy, hplace, bind, Except.bind, Bool.not_true, Option.isSome_none, Bool.or_self,
      Bool.false_eq_true, if_false] at htaken
    split at htaken <;> cases htaken

/-- A path ends in the same place of a part of a disk and of the whole, as long as it can be walked in the part. -/
theorem iff_of_part {part : Disk} (hhere : part.here = disk.here)
    (hdirectories : ∀ place, part.tree.get? place = some .directory → disk.tree.get? place = some .directory)
    (hlinks : ∀ place target, part.tree.get? place = some (.link target) →
      disk.tree.get? place = some (.link target))
    {follow : Bool} {found : Place} (hplace : part.place follow path = .ok found) :
    part.EndsAt path location ↔ disk.EndsAt path location := by
  have hlanding (names : List String) (name : String) (hway : path.way = names ++ [name]) :
      disk.tree.landing FileTree.linkLimit (FileTree.startOf path disk.here) names =
        part.tree.landing FileTree.linkLimit (FileTree.startOf path part.here) names := by
    obtain ⟨-, before, after, hsteps, -, rfl⟩ := Path.steps_of_way hway
    unfold Disk.place FileTree.place at hplace
    split at hplace
    · cases hplace
    · split at hplace
      · cases hplace
      · rw [hsteps, hhere] at hplace
        rw [FileTree.landing_filter, FileTree.landing_filter, hhere]
        exact FileTree.landing_of_part hdirectories hlinks (List.cons_ne_nil name after) hplace
  constructor <;> rintro ⟨names, name, hway, hup, rfl⟩
  · exact ⟨names, name, hway, hup, by rw [hlanding names name hway]⟩
  · exact ⟨names, name, hway, hup, by rw [hlanding names name hway]⟩

end EndsAt

theorem Turns.trans {occupant? last? : Option Entry} {between after : Disk}
    (first : Turns location occupant? disk between) (second : Turns location last? between after) :
    Turns location last? disk after where
  here := second.here.trans first.here
  get? := by rw [second.get?, first.get?, Function.update_idem]

namespace Leads

variable (h : disk.Leads path location)

include h

theorem endsAt : disk.EndsAt path location := by
  obtain ⟨steps, name, hname, hsteps, rfl⟩ := h.ends
  refine ⟨steps.filter (· ≠ "."), name, ?_, hname.ne_up, by rw [FileTree.landing_filter]⟩
  rw [Path.way_eq_filter, hsteps, List.filter_append, List.filter_singleton, decide_eq_true hname.ne_here]
  rfl

theorem turns_of_write (hreply : (disk.answer (.write path contents)).1 = .ok ()) :
    Turns location (some (.file contents)) disk (disk.answer (.write path contents)).2 ∧
      disk.tree.get? location ≠ some .directory := by
  obtain ⟨-, hserve⟩ := answer_of_ok hreply
  rw [hserve] at hreply ⊢
  obtain ⟨tree, htree, hafter⟩ := update_eq_ok hreply
  obtain ⟨hfree, rfl⟩ := write_eq_ok h htree
  change Turns _ _ disk (disk.update (disk.write path contents)).2 ∧ _
  rw [hafter]
  exact ⟨turns_set h.ne_root disk _, hfree⟩

theorem turns_of_removed (hreply : (disk.answer (.remove path)).1 = .ok ()) :
    Turns location none disk (disk.answer (.remove path)).2 ∧ disk.tree.get? location ≠ some .directory := by
  obtain ⟨-, hserve⟩ := answer_of_ok hreply
  rw [hserve] at hreply ⊢
  obtain ⟨tree, htree, hafter⟩ := update_eq_ok hreply
  obtain ⟨hfree, rfl⟩ := remove_eq_ok h htree
  change Turns _ _ disk (disk.update (disk.remove path)).2 ∧ _
  rw [hafter]
  exact ⟨turns_erase h.ne_root disk, hfree⟩

/-- What has been written can be removed, unless directories or links have gone since. -/
theorem turns_of_remove {text : String} (hwritten : (disk.answer (.write path text)).1 = .ok ()) {later : Disk}
    {fresh touched : Location → Prop} (hchanges : Changes fresh touched disk later)
    (hfile : later.tree.get? location = some (.file contents)) :
    Turns location none later (later.answer (.remove path)).2 := by
  obtain ⟨hnul, hserve⟩ := answer_of_ok hwritten
  rw [hserve] at hwritten
  obtain ⟨tree, htree, -⟩ := update_eq_ok hwritten
  obtain ⟨found, hplace, -⟩ := bind_eq_ok.1 htree
  have hlater : later.place false path = _ := h.place_later hchanges hplace
  have hremove : later.remove path = .ok (later.tree.erase location) := by
    simp only [remove, hlater, hfile, bind, Except.bind, Bool.false_eq_true, if_false]
  have hanswer : later.answer (.remove path) = later.update (later.remove path) := answer_of_not_nul hnul
  rw [hanswer, hremove]
  exact turns_erase h.ne_root later

variable (hfile : disk.tree.get? location = some (.file contents))

include hfile

theorem turns_of_link (hreply : (disk.answer (.link path new)).1 = .ok ()) :
    (∃ found, disk.place false new = .ok found) ∧ ∃ place, disk.EndsAt new place ∧ disk.tree.get? place = none ∧
      Turns place (some (.file contents)) disk (disk.answer (.link path new)).2 := by
  obtain ⟨-, hserve⟩ := answer_of_ok hreply
  rw [hserve] at hreply ⊢
  obtain ⟨tree, htree, hafter⟩ := update_eq_ok hreply
  obtain ⟨old, hold, hset⟩ := bind_eq_ok.1 htree
  obtain rfl := h.place_eq hold
  simp only [hfile, Bool.false_and, Bool.false_eq_true, if_false] at hset
  obtain ⟨place, hvacant, hset⟩ := bind_eq_ok.1 hset
  obtain ⟨hends, -, hnone⟩ := vacancy_eq_ok hvacant
  obtain ⟨found, hfound, -⟩ := bind_eq_ok.1 hvacant
  obtain rfl := Except.ok.inj hset
  refine ⟨⟨found, hfound⟩, place, hends, hnone, ?_⟩
  change Turns _ _ disk (disk.update (disk.link path new)).2
  rw [hafter]
  exact turns_set hends.ne_root disk _

theorem changes_link (new : Path) :
    Changes (fun _ => False) (fun _ => True) disk (disk.answer (.link path new)).2 := by
  cases hreply : (disk.answer (.link path new)).1 with
  | error fault =>
    rw [answer_of_refused hreply]
    exact Changes.refl disk
  | ok done =>
    obtain ⟨-, place, -, hnone, hturns⟩ := h.turns_of_link hfile hreply
    have hspares : Spares (fun _ => False) (· = place) disk _ :=
      hturns.spares (link?_of_none hnone) (by simp [hnone]) rfl
    exact hspares.changes.mono (fun _ => id) fun _ _ => trivial

/-- A second name for a file is refused as taken only where something stands. -/
theorem get?_of_link (hreply : (disk.answer (.link path new)).1 = .error .alreadyExists)
    (hends : disk.EndsAt new place) : disk.tree.get? place ≠ none := by
  obtain ⟨-, hserve⟩ := answer_of_error hreply (by decide)
  rw [hserve] at hreply
  obtain ⟨htree, -⟩ := update_eq_error hreply
  unfold link at htree
  cases hold : disk.place path.endsInSlash path with
  | error fault =>
    rw [hold] at htree
    obtain rfl : fault = .alreadyExists := Except.error.inj htree
    exact absurd hold (place_ne_alreadyExists disk _ path)
  | ok old =>
    obtain rfl := h.place_eq hold
    simp only [hold, bind, Except.bind, hfile, Bool.false_and, Bool.false_eq_true, if_false] at htree
    cases hvacant : disk.vacancy false new with
    | error fault =>
      rw [hvacant] at htree
      obtain rfl : fault = .alreadyExists := Except.error.inj htree
      exact hends.get?_of_taken hvacant
    | ok location => simp [hvacant] at htree

theorem turns_of_rename (hreply : (disk.answer (.rename path new)).1 = .ok ()) :
    (∃ found, disk.place false new = .ok found) ∧ ∃ place, disk.EndsAt new place ∧
      disk.tree.get? place ≠ some .directory ∧
      (disk.answer (.rename path new)).2.here = disk.here ∧
      (disk.answer (.rename path new)).2.tree.get? =
        Function.update (Function.update disk.tree.get? location none) place (some (.file contents)) := by
  obtain ⟨-, hserve⟩ := answer_of_ok hreply
  rw [hserve] at hreply ⊢
  obtain ⟨tree, htree, hafter⟩ := update_eq_ok hreply
  obtain ⟨old, hold, hrest⟩ := bind_eq_ok.1 htree
  obtain ⟨found, hfound, hset⟩ := bind_eq_ok.1 hrest
  obtain rfl := h.place_eq hold
  split at hset
  · cases hset
  · next hnamed =>
    simp only [Bool.not_true, Bool.false_or, Bool.not_eq_true', Bool.not_eq_false] at hnamed
    obtain ⟨hends, hentry⟩ := endsAt_of_place hfound hnamed
    rw [hfile, hentry] at hset
    simp only [Bool.false_or] at hset
    split at hset
    · cases hset
    · split at hset
      · cases hset
      · next hfree =>
        obtain rfl := Except.ok.inj hset
        refine ⟨⟨found, hfound⟩, found.location, hends, hfree, ?_⟩
        change (disk.update (disk.rename path new)).2.here = disk.here ∧
          (disk.update (disk.rename path new)).2.tree.get? = _
        rw [hafter]
        refine ⟨rfl, ?_⟩
        rw [FileTree.get?_set_eq hends.ne_root, FileTree.get?_erase_eq h.ne_root]

end Leads

end Disk

namespace Delivery

open Disk

section Staging

variable {disk : Disk} {place temporary : Location}

/-- The temporary file of a path has a name of its own in what the path lies in, or in the path itself. -/
theorem staging_eq_join (target : Path) : ∃ (base : Path) (name : String), '/' ∉ name.toList ∧
    staging target = base.join ⟨"." ++ name ++ ".tmp"⟩ := by
  have hplain : '/' ∉ (target.fileName?.getD "").toList := by
    cases hname : target.fileName? with
    | none => simp
    | some name => exact Path.not_mem_of_mem_parts (Path.mem_parts_of_fileName? hname)
  unfold staging Path.withFileName
  split
  · next parent _ _ => exact ⟨parent, _, hplain, rfl⟩
  · exact ⟨target, _, hplain, rfl⟩

theorem endsInSlash_staging (target : Path) : (staging target).endsInSlash = false := by
  obtain ⟨base, name, hplain, hstaging⟩ := staging_eq_join target
  obtain ⟨hproper, -⟩ := isProper_temporary hplain
  rw [hstaging, Path.endsInSlash_join hproper.isAbsolute_eq hproper.text_ne_empty, hproper.endsInSlash_eq]

theorem way_staging (target : Path) : ∃ names name, (staging target).way = names ++ ["." ++ name ++ ".tmp"] := by
  obtain ⟨base, name, hplain, hstaging⟩ := staging_eq_join target
  obtain ⟨hproper, hparts⟩ := isProper_temporary hplain
  exact ⟨base.way, name, by rw [hstaging, Path.way_join hproper.isAbsolute_eq, hproper.way_eq, hparts]⟩

/-- Whatever is to be written, there is a place where its temporary file comes to lie. -/
theorem exists_endsAt_staging (disk : Disk) (target : Path) :
    ∃ temporary, disk.EndsAt (staging target) temporary := by
  obtain ⟨names, name, hway⟩ := way_staging target
  exact ⟨_, names, _, hway, (isName_temporary name).ne_up, rfl⟩

theorem leads_of_endsAt_staging {target : Path} (h : disk.EndsAt (staging target) temporary)
    (hlink : disk.tree.link? temporary = none) : disk.Leads (staging target) temporary := by
  obtain ⟨base, name, hplain, hstaging⟩ := staging_eq_join target
  obtain ⟨hproper, -⟩ := isProper_temporary hplain
  refine h.leads ?_ (endsInSlash_staging target) hlink
  rw [hstaging]
  exact hproper.endsInWay_join base

variable {target : Path}

/-- No name is that of its own temporary file. -/
theorem name_ne_temporary (name : String) : name ≠ "." ++ name ++ ".tmp" := by
  intro hsame
  have hlength := congrArg String.length hsame
  have hdot : ".".length = 1 := by decide
  simp only [String.length_append] at hlength
  omega

/-- The temporary file of a path that ends in a name lies in what the path lies in. -/
theorem way_staging_of_way {names : List String} {name : String} (hway : target.way = names ++ [name])
    (hup : name ≠ "..") : (staging target).way = names ++ ["." ++ name ++ ".tmp"] ∧
      (staging target).isAbsolute = target.isAbsolute := by
  have hmem : name ∈ target.way := by simp [hway]
  obtain ⟨hproper, hparts⟩ := isProper_temporary (Path.not_mem_of_mem_parts (List.mem_filter.1 hmem).1)
  obtain ⟨parent, hstaging, hparent, habsolute, -⟩ := staging_eq hway hup
  rw [hstaging, Path.isAbsolute_join hproper.isAbsolute_eq, Path.way_join hproper.isAbsolute_eq, hproper.way_eq,
    hparts, hparent]
  exact ⟨rfl, habsolute⟩

theorem place_ne_temporary (htarget : disk.EndsAt target place)
    (hstaging : disk.EndsAt (staging target) temporary) : place ≠ temporary := by
  obtain ⟨names, name, hway, hup, rfl⟩ := htarget
  obtain ⟨hwhole, habsolute⟩ := way_staging_of_way hway hup
  obtain ⟨names, last, hlast, -, rfl⟩ := hstaging
  obtain ⟨rfl, rfl⟩ := List.append_singleton_inj.1 (hwhole.symm.trans hlast)
  rw [FileTree.startOf_congr habsolute]
  intro hsame
  exact name_ne_temporary name (List.append_singleton_inj.1 hsame).2

end Staging

/-- What is done for a file once the directories are there in which it is to lie. -/
def attempt (policy : WritePolicy) (target : Path) (contents : String) : Attempt Outcome :=
  match policy with
  | .skipIfExists => writeNew target contents
  | .overwrite => replace target contents

/-- What comes of an attempt, and what it makes of the disk. -/
inductive Upshot (policy : WritePolicy) (target : Path) (contents : String) (temporary : Location) (disk : Disk) :
    Except DeliveryError Outcome → Disk → Prop where
  /-- What is there is left alone. -/
  | found (skip : policy = .skipIfExists)
      (there : ∀ place, disk.EndsAt target place → disk.tree.get? place ≠ none) :
      Upshot policy target contents temporary disk (.ok .skipped) disk
  /-- The temporary file cannot be written. -/
  | refused (fault : FileFault) :
      Upshot policy target contents temporary disk (.error ⟨staging target, fault⟩) disk
  | placed {place : Location} {after : Disk}
      (walked : ∃ staged found, Turns temporary (some (.file contents)) disk staged ∧
        staged.place false target = .ok found)
      (ends : disk.EndsAt target place)
      (vacant : policy = .skipIfExists → disk.tree.get? place = none)
      (place_free : disk.tree.get? place ≠ some .directory)
      (temporary_free : disk.tree.get? temporary ≠ some .directory) (here : after.here = disk.here)
      (get? : after.tree.get? = Function.update (Function.update disk.tree.get? temporary none) place
        (some (.file contents))) :
      Upshot policy target contents temporary disk (.ok .written) after
  /-- The temporary file is taken away again. -/
  | withdrawn {result : Except DeliveryError Outcome} {after : Disk} (skip : policy = .skipIfExists)
      (temporary_free : disk.tree.get? temporary ≠ some .directory) (turns : Turns temporary none disk after)
      (reason : (result = .ok .skipped ∧ ∀ place, disk.EndsAt target place → disk.tree.get? place ≠ none) ∨
        ∃ fault, result = .error ⟨target, fault⟩) :
      Upshot policy target contents temporary disk result after
  /-- The temporary file stays. -/
  | abandoned {after : Disk} (overwrite : policy = .overwrite) (fault : FileFault)
      (temporary_free : disk.tree.get? temporary ≠ some .directory)
      (turns : Turns temporary (some (.file contents)) disk after) :
      Upshot policy target contents temporary disk (.error ⟨target, fault⟩) after

section Upshot

variable {disk written : Disk} {target : Path} {temporary : Location} {contents : String}
  (hstaging : disk.Leads (staging target) temporary)

include hstaging

/-- Once the contents are in the temporary file, only its place has changed, and a path ends where it did. -/
theorem staged_of_write (hwrite : disk.answer (.write (staging target) contents) = (.ok (), written)) :
    Turns temporary (some (.file contents)) disk written ∧ disk.tree.get? temporary ≠ some .directory ∧
      Changes (fun _ => False) (· = temporary) disk written ∧ written.Leads (staging target) temporary ∧
      ∀ path place, written.EndsAt path place ↔ disk.EndsAt path place := by
  have hchanges := changes_write hstaging contents
  have hreply : (disk.answer (.write (staging target) contents)).1 = .ok () := by rw [hwrite]
  obtain ⟨hturns, hfree⟩ := hstaging.turns_of_write hreply
  rw [hwrite] at hchanges hturns
  refine ⟨hturns, hfree, hchanges, hstaging.later hchanges, fun path place => ⟨?_, ?_⟩⟩
  · exact EndsAt.congr hchanges.link? hchanges.here
  · exact EndsAt.congr (fun place => (hchanges.link? place).symm) hchanges.here.symm

section Linked

variable {linked : Disk} (hwrite : disk.answer (.write (staging target) contents) = (.ok (), written))

include hwrite

/-- The temporary file has got the name of the target and is taken away. -/
theorem upshot_of_linked (hlink : written.answer (.link (staging target) target) = (.ok (), linked)) :
    Upshot .skipIfExists target contents temporary disk (.ok .written)
      (linked.answer (.remove (staging target))).2 := by
  obtain ⟨hturns, hfree, hchanges, hlater, hends⟩ := staged_of_write hstaging hwrite
  have hreply : (written.answer (.link (staging target) target)).1 = .ok () := by rw [hlink]
  obtain ⟨⟨found, hfound⟩, place, hplace, hvacant, hlinked⟩ := hlater.turns_of_link hturns.self hreply
  have hchangesLater := hlater.changes_link hturns.self target
  rw [hlink] at hlinked hchangesLater
  have hne : place ≠ temporary := place_ne_temporary ((hends _ _).1 hplace) hstaging.endsAt
  have hboth : Changes (fun _ => False) (fun _ => True) disk linked :=
    (hchanges.mono (fun _ => id) fun _ _ => trivial).trans hchangesLater
  have hremoved := hstaging.turns_of_remove (by rw [hwrite]) hboth ((hlinked.other hne.symm).trans hturns.self)
  rw [hturns.other hne] at hvacant
  refine .placed ⟨written, found, hturns, hfound⟩ ((hends _ _).1 hplace) (fun _ => hvacant) (by simp [hvacant]) hfree
    ?_ ?_
  · rw [hremoved.here, hlinked.here, hturns.here]
  · rw [hremoved.get?, hlinked.get?, hturns.get?, Function.update_comm hne.symm, Function.update_idem,
      Function.update_comm hne]

/-- The target is not to be had, and the temporary file is taken away. -/
theorem withdrawn_of_refused {fault : FileFault}
    (hlink : written.answer (.link (staging target) target) = (.error fault, linked)) :
    disk.tree.get? temporary ≠ some .directory ∧
      Turns temporary none disk (linked.answer (.remove (staging target))).2 ∧
      (fault = .alreadyExists → ∀ place, disk.EndsAt target place → disk.tree.get? place ≠ none) := by
  obtain ⟨hturns, hfree, hchanges, hlater, hends⟩ := staged_of_write hstaging hwrite
  obtain rfl : linked = written := by rw [← answer_of_refused (congrArg Prod.fst hlink), hlink]
  refine ⟨hfree, hturns.trans (hstaging.turns_of_remove (by rw [hwrite]) hchanges hturns.self), ?_⟩
  rintro rfl place hplace
  rw [← hturns.other (place_ne_temporary hplace hstaging.endsAt)]
  exact hlater.get?_of_link hturns.self (by rw [hlink]) ((hends _ _).2 hplace)

end Linked

theorem upshot_of_writeNew :
    Upshot .skipIfExists target contents temporary disk (played (writeNew target contents) disk).1
      (played (writeNew target contents) disk).2 := by
  unfold writeNew
  rw [played_bind, played_session, run_exists?]
  dsimp only
  cases hfound : ((Session.exists? target).run disk).1 with
  | true => exact .found rfl fun place hends => hends.get?_of_exists hfound
  | false =>
    simp only [Bool.false_eq_true, if_false]
    rw [played_bind, played_orBlame, run_send]
    rcases hwrite : disk.answer (.write (staging target) contents) with ⟨fault | done, written⟩
    · obtain rfl : written = disk := by rw [← answer_of_refused (congrArg Prod.fst hwrite), hwrite]
      exact .refused fault
    dsimp only [Except.mapError]
    rw [played_send]
    rcases hlink : written.answer (.link (staging target) target) with ⟨fault | done, linked⟩
    · obtain ⟨hfree, hremoved, htaken⟩ := withdrawn_of_refused hstaging hwrite hlink
      rw [played_send]
      generalize (linked.answer (.remove (staging target))).2 = removed at hremoved ⊢
      cases fault with
      | alreadyExists => exact .withdrawn rfl hfree hremoved (Or.inl ⟨rfl, htaken rfl⟩)
      | _ => exact .withdrawn rfl hfree hremoved (Or.inr ⟨_, rfl⟩)
    · have hplaced := upshot_of_linked hstaging hwrite hlink
      rw [played_send]
      generalize (linked.answer (.remove (staging target))).2 = removed at hplaced ⊢
      exact hplaced

theorem upshot_of_replace :
    Upshot .overwrite target contents temporary disk (played (replace target contents) disk).1
      (played (replace target contents) disk).2 := by
  unfold replace
  rw [played_bind, played_orBlame, run_send]
  rcases hwrite : disk.answer (.write (staging target) contents) with ⟨fault | done, written⟩
  · obtain rfl : written = disk := by rw [← answer_of_refused (congrArg Prod.fst hwrite), hwrite]
    exact .refused fault
  dsimp only [Except.mapError]
  obtain ⟨hturns, hfree, -, hlater, hends⟩ := staged_of_write hstaging hwrite
  rw [played_bind, played_orBlame, run_send]
  rcases hrename : written.answer (.rename (staging target) target) with ⟨fault | done, renamed⟩
  · obtain rfl : renamed = written := by rw [← answer_of_refused (congrArg Prod.fst hrename), hrename]
    exact .abandoned rfl fault hfree hturns
  · have hreply : (written.answer (.rename (staging target) target)).1 = .ok () := by rw [hrename]
    obtain ⟨⟨found, hfound⟩, place, hplace, hplaceFree, hhere, hget⟩ := hlater.turns_of_rename hturns.self hreply
    rw [hrename] at hhere hget
    rw [hends] at hplace
    rw [hturns.other (place_ne_temporary hplace hstaging.endsAt)] at hplaceFree
    dsimp only [Except.mapError, played_pure]
    refine .placed ⟨written, found, hturns, hfound⟩ hplace (fun hskip => by cases hskip) hplaceFree hfree
      (hhere.trans hturns.here) ?_
    rw [hget, hturns.get?, Function.update_idem]

theorem upshot_of_attempt (policy : WritePolicy) (contents : String) :
    Upshot policy target contents temporary disk (played (attempt policy target contents) disk).1
      (played (attempt policy target contents) disk).2 := by
  cases policy with
  | skipIfExists => exact upshot_of_writeNew hstaging
  | overwrite => exact upshot_of_replace hstaging

end Upshot

end Delivery

open Delivery in
/-- A file is attempted once the directories have been made that it is to lie in. -/
theorem Destination.played_write {destination : Destination} (hreal : destination.dryRun = false) (artifact : Artifact)
    (disk : Disk) : played (destination.write artifact) disk =
      match played (makeParent (destination.root.join artifact.path)) disk with
      | (.ok _, opened) =>
        played (attempt artifact.policy (destination.root.join artifact.path) artifact.contents) opened
      | (.error failure, opened) => (.error failure, opened) := by
  unfold Destination.write attempt
  simp only [hreal, Bool.false_eq_true, if_false]
  rw [played_bind]
  rcases played (makeParent (destination.root.join artifact.path)) disk with ⟨failure | done, opened⟩ <;> rfl

end EntityForge
