import EntityForge.Disk
import EntityForge.Proofs.Refusal
import EntityForge.Proofs.Walk

/-!
What a request changes on a disk.

No request that a delivery makes takes a directory away or lets a link come or go, so a path leads to the
same place before and after it. `Disk.Changes` says this, and at which places anything else may happen.
Main statements: one for each kind of request, and `Disk.Leads.read_later`.
-/

namespace EntityForge

namespace Disk

/-- What may lie between two states of a disk. Links and directories stay. Where nothing was, a directory
may come up anywhere and a file at a `fresh` place; what was there stays, except at a `touched` place. -/
structure Changes (fresh touched : Location → Prop) (before after : Disk) : Prop where
  here : after.here = before.here
  link? : ∀ location, after.tree.link? location = before.tree.link? location
  directory : ∀ location, before.tree.get? location = some .directory →
    after.tree.get? location = some .directory
  others : ∀ location, ¬touched location →
    after.tree.get? location = before.tree.get? location ∨
      before.tree.get? location = none ∧
        (after.tree.get? location = some .directory ∨ fresh location)

namespace Changes

variable {fresh touched fresh' touched' : Location → Prop} {before between after : Disk}

theorem refl (disk : Disk) : Changes fresh touched disk disk where
  here := rfl
  link? _ := rfl
  directory _ h := h
  others _ _ := Or.inl rfl

theorem trans (first : Changes fresh touched before between)
    (second : Changes fresh touched between after) : Changes fresh touched before after where
  here := second.here.trans first.here
  link? location := (second.link? location).trans (first.link? location)
  directory location h := second.directory location (first.directory location h)
  others location h := by
    rcases second.others location h with hsame | ⟨hnone, hnew⟩
    · rcases first.others location h with hfirst | ⟨hnone, hnew⟩
      · exact Or.inl (hsame.trans hfirst)
      · exact Or.inr ⟨hnone, hsame ▸ hnew⟩
    · rcases first.others location h with hfirst | ⟨hvacant, -⟩
      · exact Or.inr ⟨hfirst ▸ hnone, hnew⟩
      · exact Or.inr ⟨hvacant, hnew⟩

theorem mono (h : Changes fresh touched before after)
    (hfresh : ∀ location, fresh location → fresh' location)
    (htouched : ∀ location, touched location → touched' location) :
    Changes fresh' touched' before after where
  here := h.here
  link? := h.link?
  directory := h.directory
  others location hnot := by
    rcases h.others location (fun ht => hnot (htouched location ht)) with hsame | ⟨hnone, hnew⟩
    · exact Or.inl hsame
    · exact Or.inr ⟨hnone, hnew.imp_right (hfresh location)⟩

/-- What is there and not touched is there afterwards. -/
theorem kept (h : Changes fresh touched before after) {location : Location} {entry : Entry}
    (hnot : ¬touched location) (hentry : before.tree.get? location = some entry) :
    after.tree.get? location = some entry := by
  rcases h.others location hnot with hsame | ⟨hnone, -⟩
  · rw [hsame, hentry]
  · rw [hentry] at hnone
    cases hnone

theorem landing (h : Changes fresh touched before after) (links : Nat) (here : Location)
    (steps : List String) :
    after.tree.landing links here steps = before.tree.landing links here steps :=
  FileTree.landing_congr h.link? links here steps

end Changes

section Single

variable {disk : Disk} {location : Location} {entry : Entry}

/-- Something other than a link comes to a place where no directory and no link is. -/
theorem changes_set {fresh touched : Location → Prop} (hroot : location ≠ [])
    (hlink : disk.tree.link? location = none) (hentry : entry.target? = none)
    (hdirectory : disk.tree.get? location ≠ some .directory)
    (hplace : touched location ∨ disk.tree.get? location = none ∧
      (entry = .directory ∨ fresh location)) :
    Changes fresh touched disk { disk with tree := disk.tree.set location entry } where
  here := rfl
  link? other := by
    by_cases hother : other = location
    · rw [hother, hlink]
      unfold FileTree.link?
      rw [FileTree.get?_set _ _ _ _ hroot, if_pos rfl]
      exact hentry
    · by_cases hnil : other = []
      · rw [hnil]
        rfl
      · unfold FileTree.link?
        rw [FileTree.get?_set _ _ _ _ hnil, if_neg (Ne.symm hother)]
  directory other h := by
    by_cases hnil : other = []
    · rw [hnil]
      rfl
    · have hother : location ≠ other := fun e => hdirectory (e ▸ h)
      rw [FileTree.get?_set _ _ _ _ hnil, if_neg hother]
      exact h
  others other hnot := by
    by_cases hnil : other = []
    · rw [hnil]
      exact Or.inl rfl
    · rw [FileTree.get?_set _ _ _ _ hnil]
      by_cases hother : location = other
      · subst hother
        rcases hplace with htouched | ⟨hnone, hnew⟩
        · exact absurd htouched hnot
        · exact Or.inr ⟨hnone, hnew.imp_left (by rintro rfl; simp)⟩
      · exact Or.inl (if_neg hother)

/-- What is neither a directory nor a link goes away. -/
theorem changes_erase (hlink : disk.tree.link? location = none)
    (hdirectory : disk.tree.get? location ≠ some .directory) :
    Changes (fun _ => False) (· = location) disk
      { disk with tree := disk.tree.erase location } where
  here := rfl
  link? other := by
    by_cases hnil : other = []
    · rw [hnil]
      rfl
    · by_cases hother : location = other
      · subst hother
        rw [hlink]
        simp [FileTree.link?, FileTree.get?_erase _ _ _ hnil]
      · unfold FileTree.link?
        rw [FileTree.get?_erase _ _ _ hnil, if_neg hother]
  directory other h := by
    by_cases hnil : other = []
    · rw [hnil]
      rfl
    · have hother : location ≠ other := fun e => hdirectory (e ▸ h)
      rw [FileTree.get?_erase _ _ _ hnil, if_neg hother]
      exact h
  others other hnot := by
    by_cases hnil : other = []
    · rw [hnil]
      exact Or.inl rfl
    · rw [FileTree.get?_erase _ _ _ hnil, if_neg (Ne.symm hnot)]
      exact Or.inl rfl

end Single

/-- A path that ends in a name leads to a place at which there is no link, whether or not a walk to it is
refused. -/
structure Leads (disk : Disk) (path : Path) (location : Location) : Prop where
  ends : ∃ steps name, IsName name ∧ FileTree.steps path = steps ++ [name] ∧
    location =
      disk.tree.landing FileTree.linkLimit (FileTree.startOf path disk.here) steps ++ [name]
  open_end : path.endsInSlash = false
  unlinked : disk.tree.link? location = none

namespace Leads

variable {fresh touched : Location → Prop} {disk after : Disk} {path : Path} {location : Location}

theorem ne_root (h : disk.Leads path location) : location ≠ [] := by
  obtain ⟨steps, name, -, -, hlocation⟩ := h.ends
  rw [hlocation]
  simp

theorem later (h : disk.Leads path location) (hchanges : Changes fresh touched disk after) :
    after.Leads path location where
  ends := by
    obtain ⟨steps, name, hname, hsteps, hlocation⟩ := h.ends
    refine ⟨steps, name, hname, hsteps, ?_⟩
    rw [hchanges.landing, hchanges.here, hlocation]
  open_end := h.open_end
  unlinked := by rw [hchanges.link?, h.unlinked]

theorem place_eq (h : disk.Leads path location) {follow : Bool} {place : Place}
    (hplace : disk.place follow path = .ok place) :
    place = ⟨location, disk.tree.get? location, true, false⟩ := by
  obtain ⟨steps, name, hname, hsteps, hlocation⟩ := h.ends
  have hlink := h.unlinked
  unfold Disk.place FileTree.place at hplace
  split at hplace
  · cases hplace
  · split at hplace
    · cases hplace
    · rw [hsteps, h.open_end] at hplace
      rw [hlocation] at hlink ⊢
      exact FileTree.walk_concat hname hlink hplace

theorem place_later (h : disk.Leads path location) (hchanges : Changes fresh touched disk after)
    {follow again : Bool} {place : Place} (hplace : disk.place follow path = .ok place) :
    after.place again path = .ok ⟨location, after.tree.get? location, true, false⟩ := by
  obtain ⟨steps, name, hname, hsteps, hlocation⟩ := h.ends
  have hlink := h.unlinked
  unfold Disk.place FileTree.place at hplace ⊢
  split at hplace
  · cases hplace
  · next hshort =>
    rw [if_neg hshort]
    split at hplace
    · cases hplace
    · next hnonempty =>
      rw [if_neg hnonempty, hchanges.here]
      rw [hsteps, h.open_end] at hplace ⊢
      rw [hlocation] at hlink ⊢
      exact FileTree.walk_later hchanges.link? hchanges.directory hname hlink hplace

/-- What can be read from a file that stands where a walk has been before. -/
theorem read_later (h : disk.Leads path location) (hchanges : Changes fresh touched disk after)
    {follow : Bool} {place : Place} (hplace : disk.place follow path = .ok place)
    {contents : String} (hentry : after.tree.get? location = some (.file contents)) :
    after.read path = .ok contents := by
  have hlater : after.place true path = _ := h.place_later hchanges hplace
  unfold Disk.read Disk.entry
  rw [hlater, hentry]
  rfl

/-- What can be read at the end of a path stands there. -/
theorem entry_of_read (h : disk.Leads path location) {contents : String} (hread : disk.read path = .ok contents) :
    (∃ place, disk.place true path = .ok place) ∧ disk.tree.get? location = some (.file contents) := by
  obtain ⟨entry, hentry, hcontents⟩ := bind_eq_ok.1 hread
  obtain ⟨place, hplace, hvalue⟩ := bind_eq_ok.1 hentry
  refine ⟨⟨place, hplace⟩, ?_⟩
  obtain rfl := h.place_eq hplace
  cases hget : disk.tree.get? location with
  | none => simp [hget] at hvalue
  | some found =>
    cases found with
    | directory =>
      simp only [hget, Except.ok.injEq] at hvalue
      simp [← hvalue] at hcontents
    | file text =>
      simp only [hget, Bool.false_eq_true, if_false, Except.ok.injEq] at hvalue
      simpa [← hvalue] using hcontents
    | link target =>
      have := FileTree.link?_eq_none.1 h.unlinked target
      exact absurd hget this

/-- A file that is read and not touched is read again. -/
theorem read_again (h : disk.Leads path location) (hchanges : Changes fresh touched disk after)
    (hnot : ¬touched location) {contents : String} (hread : disk.read path = .ok contents) :
    after.read path = .ok contents := by
  obtain ⟨⟨place, hplace⟩, hfile⟩ := h.entry_of_read hread
  exact h.read_later hchanges hplace (hchanges.kept hnot hfile)

end Leads

section Requests

variable {disk : Disk} {path new : Path} {location target : Location} {contents : String}

theorem changes_update {fresh touched : Location → Prop} {result : Except FileFault FileTree}
    (h : ∀ tree, result = .ok tree → Changes fresh touched disk { disk with tree := tree }) :
    Changes fresh touched disk (disk.update result).2 := by
  cases result with
  | ok tree => exact h tree rfl
  | error fault => exact Changes.refl disk

theorem answer_probe (disk : Disk) (path : Path) : (disk.answer (.probe path)).2 = disk := by
  unfold answer
  split <;> rfl

/-- A place at which something new may come up is empty. -/
theorem vacancy_entry {directory : Bool} (h : disk.vacancy directory path = .ok location) :
    disk.tree.get? location = none := by
  obtain ⟨place, hplace, hvacant⟩ := bind_eq_ok.1 h
  split at hvacant
  · cases hvacant
  · next hbusy =>
    split at hvacant
    · cases hvacant
    · obtain rfl := Except.ok.inj hvacant
      simp only [Bool.or_eq_true, Bool.not_eq_true', not_or, Bool.not_eq_false,
        Option.not_isSome_iff_eq_none] at hbusy
      unfold Disk.place FileTree.place at hplace
      split at hplace
      · cases hplace
      · split at hplace
        · cases hplace
        · rw [← FileTree.walk_entry hplace hbusy.1]
          exact hbusy.2

theorem changes_makeDirectory (disk : Disk) (path : Path) :
    Changes (fun _ => False) (fun _ => False) disk (disk.answer (.makeDirectory path)).2 := by
  unfold answer
  split
  · exact Changes.refl disk
  · refine changes_update fun tree htree => ?_
    obtain ⟨location, hlocation, htree⟩ := bind_eq_ok.1 htree
    obtain rfl := pure_eq_ok.1 htree
    have hnone := vacancy_entry hlocation
    refine changes_set ?_ ?_ rfl ?_ (Or.inr ⟨hnone, Or.inl rfl⟩)
    · rintro rfl
      simp [FileTree.get?] at hnone
    · simp [FileTree.link?, hnone]
    · simp [hnone]

theorem write_eq_ok (h : disk.Leads path location) {tree : FileTree}
    (htree : disk.write path contents = .ok tree) :
    disk.tree.get? location ≠ some .directory ∧
      tree = disk.tree.set location (.file contents) := by
  obtain ⟨place, hplace, htree⟩ := bind_eq_ok.1 htree
  obtain rfl := h.place_eq hplace
  split at htree
  · cases htree
  · next hfile =>
    exact ⟨by simpa using hfile, (Except.ok.inj htree).symm⟩

theorem changes_write (h : disk.Leads path location) (contents : String) :
    Changes (fun _ => False) (· = location) disk (disk.answer (.write path contents)).2 := by
  unfold answer
  split
  · exact Changes.refl disk
  · refine changes_update fun tree htree => ?_
    obtain ⟨hdirectory, rfl⟩ := write_eq_ok h htree
    exact changes_set h.ne_root h.unlinked rfl hdirectory (Or.inl rfl)

/-- A file that has been written is there. -/
theorem get?_of_write (h : disk.Leads path location)
    (hreply : (disk.answer (.write path contents)).1 = .ok ()) :
    (disk.answer (.write path contents)).2.tree.get? location = some (.file contents) := by
  unfold answer at hreply ⊢
  split at hreply
  · cases hreply
  · next hnul =>
    rw [if_neg hnul]
    cases htree : disk.write path contents with
    | error fault => simp [serve, update, htree] at hreply
    | ok tree =>
      obtain ⟨-, rfl⟩ := write_eq_ok h htree
      simp only [serve, update, htree, FileTree.get?_set _ _ _ _ h.ne_root, if_true]

theorem link_eq_ok (h : disk.Leads path location) (hnew : disk.Leads new target) {tree : FileTree}
    (htree : disk.link path new = .ok tree) :
    disk.tree.get? target = none ∧ ∃ entry, disk.tree.get? location = some entry ∧
      entry ≠ .directory ∧ tree = disk.tree.set target entry := by
  obtain ⟨old, hold, htree⟩ := bind_eq_ok.1 htree
  obtain rfl := h.place_eq hold
  split at htree
  · cases htree
  · next entry hentry =>
    split at htree
    · cases htree
    · obtain ⟨vacant, hvacant, htree⟩ := bind_eq_ok.1 htree
      have hnone := vacancy_entry hvacant
      obtain ⟨place, hplace, hlocation⟩ := bind_eq_ok.1 hvacant
      obtain rfl := hnew.place_eq hplace
      split at hlocation
      · cases hlocation
      · split at hlocation
        · cases hlocation
        · obtain rfl := Except.ok.inj hlocation
          split at htree
          · cases htree
          · next hfile => exact ⟨hnone, entry, hentry, hfile, (Except.ok.inj htree).symm⟩

theorem changes_link (h : disk.Leads path location) (hnew : disk.Leads new target) :
    Changes (· = target) (fun _ => False) disk (disk.answer (.link path new)).2 := by
  unfold answer
  split
  · exact Changes.refl disk
  · refine changes_update fun tree htree => ?_
    obtain ⟨hnone, entry, hentry, -, rfl⟩ := link_eq_ok h hnew htree
    have hfile : entry.target? = none := by simpa [FileTree.link?, hentry] using h.unlinked
    exact changes_set hnew.ne_root hnew.unlinked hfile (by simp [hnone])
      (Or.inr ⟨hnone, Or.inr rfl⟩)

theorem remove_eq_ok (h : disk.Leads path location) {tree : FileTree}
    (htree : disk.remove path = .ok tree) :
    disk.tree.get? location ≠ some .directory ∧ tree = disk.tree.erase location := by
  obtain ⟨place, hplace, htree⟩ := bind_eq_ok.1 htree
  obtain rfl := h.place_eq hplace
  split at htree
  · cases htree
  · cases htree
  · next entry hfile hentry =>
    split at htree
    · cases htree
    · refine ⟨?_, (Except.ok.inj htree).symm⟩
      simp only at hentry
      rw [hentry]
      exact fun e => hfile (Option.some.inj e)

theorem changes_remove (h : disk.Leads path location) :
    Changes (fun _ => False) (· = location) disk (disk.answer (.remove path)).2 := by
  unfold answer
  split
  · exact Changes.refl disk
  · refine changes_update fun tree htree => ?_
    obtain ⟨hdirectory, rfl⟩ := remove_eq_ok h htree
    exact changes_erase h.unlinked hdirectory

theorem rename_eq_ok (h : disk.Leads path location) (hnew : disk.Leads new target)
    {tree : FileTree} (htree : disk.rename path new = .ok tree) :
    (∃ place, disk.place false new = .ok place) ∧ disk.tree.get? target ≠ some .directory ∧
      ∃ entry, disk.tree.get? location = some entry ∧ entry ≠ .directory ∧
        tree = (disk.tree.erase location).set target entry := by
  obtain ⟨old, hold, htree⟩ := bind_eq_ok.1 htree
  obtain ⟨place, hplace, htree⟩ := bind_eq_ok.1 htree
  refine ⟨⟨place, hplace⟩, ?_⟩
  obtain rfl := h.place_eq hold
  obtain rfl := hnew.place_eq hplace
  split at htree
  · cases htree
  · split at htree
    · cases htree
    · cases htree
    · next entry hfile hentry =>
      split at htree
      · cases htree
      · split at htree
        · cases htree
        · next hdirectory =>
          exact ⟨hdirectory, entry, hentry, fun e => hfile (e ▸ rfl),
            (Except.ok.inj htree).symm⟩

theorem changes_rename (h : disk.Leads path location) (hnew : disk.Leads new target) :
    Changes (fun _ => False) (fun l => l = location ∨ l = target) disk
      (disk.answer (.rename path new)).2 := by
  unfold answer
  split
  · exact Changes.refl disk
  · refine changes_update fun tree htree => ?_
    obtain ⟨-, hdirectory, entry, hentry, hfile, rfl⟩ := rename_eq_ok h hnew htree
    have hplain : entry.target? = none := by simpa [FileTree.link?, hentry] using h.unlinked
    let erased : Disk := { disk with tree := disk.tree.erase location }
    have herase : Changes (fun _ => False) (· = location) disk erased :=
      changes_erase h.unlinked (by rw [hentry]; exact fun e => hfile (Option.some.inj e))
    have hvacant : erased.tree.get? target ≠ some .directory := by
      intro e
      rw [FileTree.get?_erase _ _ _ hnew.ne_root] at e
      split at e
      · cases e
      · exact hdirectory e
    have hset : Changes (fun _ => False) (· = target) erased
        { erased with tree := erased.tree.set target entry } :=
      changes_set hnew.ne_root ((herase.link? target).trans hnew.unlinked) hplain hvacant
        (Or.inl rfl)
    exact (herase.mono (fun _ hf => hf) (fun _ => Or.inl)).trans
      (hset.mono (fun _ hf => hf) (fun _ => Or.inr))

/-- A file that has got a new name can be read under it. -/
theorem read_of_rename (h : disk.Leads path location) (hnew : disk.Leads new target)
    (hfile : disk.tree.get? location = some (.file contents))
    (hreply : (disk.answer (.rename path new)).1 = .ok ()) :
    (disk.answer (.rename path new)).2.read new = .ok contents := by
  have hchanges := changes_rename h hnew
  unfold answer at hreply hchanges ⊢
  split at hreply
  · cases hreply
  · next hnul =>
    rw [if_neg hnul] at hchanges ⊢
    cases htree : disk.rename path new with
    | error fault => simp [serve, update, htree] at hreply
    | ok tree =>
      obtain ⟨⟨place, hplace⟩, -, entry, hentry, -, rfl⟩ := rename_eq_ok h hnew htree
      obtain rfl : entry = .file contents := by
        rw [hfile] at hentry
        exact (Option.some.inj hentry).symm
      refine hnew.read_later hchanges hplace ?_
      simp only [serve, update, htree, FileTree.get?_set _ _ _ _ hnew.ne_root, if_true]

end Requests

end Disk

end EntityForge
