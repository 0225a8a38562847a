import EntityForge.Proofs.Effect

/-!
Which places of a disk a delivery can change, whatever comes of it.

A file changes its own place only if it does not fail. What else may change is the place of the temporary file
beside it, and directories may come up in which it is to lie. Links may be anywhere but below the root.
Main statements: `spares_write` and `spares_writeEach`.
-/

namespace EntityForge

namespace Disk

/-- What may lie between two states of a disk. Links and directories stay. Directories come up at `opened`
places and only where nothing was; all else that changes is at `touched` places. -/
structure Spares (opened touched : Location → Prop) (before after : Disk) : Prop where
  here : after.here = before.here
  link? : ∀ location, after.tree.link? location = before.tree.link? location
  directory : ∀ location, before.tree.get? location = some .directory →
    after.tree.get? location = some .directory
  others : ∀ location, ¬touched location → after.tree.get? location = before.tree.get? location ∨
    before.tree.get? location = none ∧ after.tree.get? location = some .directory ∧ opened location

section Relation

variable {opened touched opened' touched' : Location → Prop} {before between after : Disk}
  {location : Location} {occupant? : Option Entry} {root : Path}

namespace Spares

theorem refl (disk : Disk) : Spares opened touched disk disk := ⟨rfl, fun _ => rfl, fun _ => id, fun _ _ => Or.inl rfl⟩

theorem trans (first : Spares opened touched before between) (second : Spares opened touched between after) :
    Spares opened touched before after where
  here := second.here.trans first.here
  link? location := (second.link? location).trans (first.link? location)
  directory location h := second.directory location (first.directory location h)
  others location h := by
    rcases first.others location h with hfirst | ⟨hnone, hdirectory, hopened⟩
    · rw [← hfirst]
      exact second.others location h
    · exact Or.inr ⟨hnone, second.directory location hdirectory, hopened⟩

theorem mono (h : Spares opened touched before after)
    (hopened : ∀ location, before.tree.get? location = none → opened location → opened' location)
    (htouched : ∀ location, touched location → touched' location) : Spares opened' touched' before after where
  here := h.here
  link? := h.link?
  directory := h.directory
  others location hnot :=
    (h.others location fun htouch => hnot (htouched location htouch)).imp_right
      fun ⟨hnone, hdirectory, hopen⟩ => ⟨hnone, hdirectory, hopened location hnone hopen⟩

theorem changes (h : Spares opened touched before after) : Changes (fun _ => False) touched before after where
  here := h.here
  link? := h.link?
  directory := h.directory
  others location hnot := (h.others location hnot).imp_right fun ⟨hnone, hdirectory, _⟩ =>
    ⟨hnone, Or.inl hdirectory⟩

/-- A root stays one below which nothing comes up, as long as nothing is touched but below it. -/
theorem grounded (h : Spares opened touched before after) (hroot : before.Grounded root)
    (htouched : ∀ location, touched location → ∃ below, location = before.site root ++ below) :
    after.Grounded root := by
  refine hroot.later h.here h.link? h.directory ?_
  intro location hnone
  by_cases htouch : touched location
  · exact Or.inr (htouched location htouch)
  · rcases h.others location htouch with hsame | ⟨hbefore, -, -⟩
    · exact Or.inl (hsame ▸ hnone)
    · exact Or.inl hbefore

end Spares

theorem Opens.spares (h : Opens opened before after) : Spares opened touched before after where
  here := h.here
  link? := h.link?
  directory _ hdirectory := h.kept hdirectory
  others location _ := h.others location

theorem Turns.spares (h : Turns location occupant? before after) (hlink : before.tree.link? location = none)
    (hfree : before.tree.get? location ≠ some .directory) (hentry : occupant?.bind Entry.target? = none) :
    Spares opened (· = location) before after where
  here := h.here
  link? other := by
    by_cases hother : other = location
    · rw [hother, hlink, FileTree.link?, h.self, hentry]
    · rw [FileTree.link?, FileTree.link?, h.other hother]
  directory := h.directory hfree
  others other hother := Or.inl (h.other hother)

end Relation

section Requests

variable {opened : Location → Prop} {disk : Disk} {path new : Path} {temporary place : Location}

theorem Leads.target?_eq_none (h : disk.Leads path place) {entry : Entry}
    (hentry : disk.tree.get? place = some entry) : entry.target? = none := by
  have hlink := h.unlinked
  rw [FileTree.link?, hentry] at hlink
  exact hlink

/-- A request that is refused leaves the disk as it was. -/
theorem answer_of_refused {request : Request} {fault : FileFault}
    (h : (disk.answer request).1 = .error fault) : (disk.answer request).2 = disk := by
  unfold answer at h ⊢
  split at h
  · next hnul => rw [if_pos hnul]
  · next hnul =>
    rw [if_neg hnul]
    cases request with
    | probe path => rfl
    | read path => rfl
    | makeDirectory path => exact (update_eq_error h).2
    | write path contents => exact (update_eq_error h).2
    | link path new => exact (update_eq_error h).2
    | remove path => exact (update_eq_error h).2
    | rename path new => exact (update_eq_error h).2

theorem spares_update {touched : Location → Prop} {result : Except FileFault FileTree}
    (h : ∀ tree, result = .ok tree → Spares opened touched disk { disk with tree := tree }) :
    Spares opened touched disk (disk.update result).2 := by
  cases result with
  | ok tree => exact h tree rfl
  | error fault => exact Spares.refl disk

variable (h : disk.Leads path temporary)

include h

theorem spares_writeFile (contents : String) :
    Spares opened (· = temporary) disk (disk.answer (.write path contents)).2 := by
  unfold answer
  split
  · exact Spares.refl disk
  · refine spares_update fun tree htree => ?_
    obtain ⟨hfree, rfl⟩ := write_eq_ok h htree
    exact (turns_set h.ne_root disk _).spares h.unlinked hfree rfl

theorem spares_remove : Spares opened (· = temporary) disk (disk.answer (.remove path)).2 := by
  unfold answer
  split
  · exact Spares.refl disk
  · refine spares_update fun tree htree => ?_
    obtain ⟨hfree, rfl⟩ := remove_eq_ok h htree
    exact (turns_erase h.ne_root disk).spares h.unlinked hfree rfl

variable (hends : ∀ location, disk.EndsAt new location → location = place)

include hends

theorem spares_link : Spares opened (· = place) disk (disk.answer (.link path new)).2 := by
  unfold answer
  split
  · exact Spares.refl disk
  · refine spares_update fun tree htree => ?_
    obtain ⟨old, hold, htree⟩ := bind_eq_ok.1 htree
    obtain rfl := h.place_eq hold
    split at htree
    · cases htree
    · next entry hentry =>
      split at htree
      · cases htree
      · obtain ⟨location, hvacant, htree⟩ := bind_eq_ok.1 htree
        obtain ⟨hlocation, -, hnone⟩ := vacancy_eq_ok hvacant
        obtain rfl := hends location hlocation
        split at htree
        · cases htree
        · obtain rfl := Except.ok.inj htree
          exact (turns_set hlocation.ne_root disk entry).spares (link?_of_none hnone) (by simp [hnone])
            (h.target?_eq_none hentry)

theorem rename_eq_ok_of_ends {tree : FileTree} (htree : disk.rename path new = .ok tree) :
    place ≠ [] ∧ disk.tree.get? place ≠ some .directory ∧ ∃ entry,
      disk.tree.get? temporary = some entry ∧ entry ≠ .directory ∧
        tree = (disk.tree.erase temporary).set place entry := by
  obtain ⟨old, hold, htree⟩ := bind_eq_ok.1 htree
  obtain ⟨target, htarget, htree⟩ := bind_eq_ok.1 htree
  obtain rfl := h.place_eq hold
  split at htree
  · cases htree
  · next hnamed =>
    simp only [Bool.not_true, Bool.false_or, Bool.not_eq_true', Bool.not_eq_false] at hnamed
    obtain ⟨hlocation, htargetEntry⟩ := endsAt_of_place htarget hnamed
    obtain rfl := hends target.location hlocation
    refine ⟨hlocation.ne_root, ?_⟩
    rw [← htargetEntry]
    split at htree
    · cases htree
    · cases htree
    · next entry hfile hentry =>
      split at htree
      · cases htree
      · split at htree
        · cases htree
        · next hfree => exact ⟨hfree, entry, hentry, fun e => hfile (e ▸ rfl), (Except.ok.inj htree).symm⟩

theorem spares_rename (hlink : disk.tree.link? place = none) (hne : place ≠ temporary) :
    Spares opened (fun location => location = temporary ∨ location = place) disk
      (disk.answer (.rename path new)).2 := by
  unfold answer
  split
  · exact Spares.refl disk
  · refine spares_update fun tree htree => ?_
    obtain ⟨hroot, hfree, entry, hentry, hfile, rfl⟩ := rename_eq_ok_of_ends h hends htree
    let erased : Disk := { disk with tree := disk.tree.erase temporary }
    have hturns : Turns temporary none disk erased := turns_erase h.ne_root disk
    have hgone : Spares opened (· = temporary) disk erased := by
      refine hturns.spares h.unlinked ?_ rfl
      rw [hentry]
      exact fun hdirectory => hfile (Option.some.inj hdirectory)
    have hput : Spares opened (· = place) erased { erased with tree := erased.tree.set place entry } := by
      refine (turns_set hroot erased entry).spares ?_ ?_ (h.target?_eq_none hentry)
      · rw [hgone.link?, hlink]
      · rw [hturns.other hne]
        exact hfree
    exact (hgone.mono (fun _ _ => id) fun _ => Or.inl).trans (hput.mono (fun _ _ => id) fun _ => Or.inr)

end Requests

end Disk

namespace Delivery

open Disk

/-- The places at which an attempt for a file may change what is there: that of the temporary file, and that of
the file if the attempt does not fail. -/
def Marks (temporary place : Location) (result : Except DeliveryError Outcome) (location : Location) : Prop :=
  location = temporary ∨ location = place ∧ ∃ outcome, result = .ok outcome

section Files

variable {opened : Location → Prop} {temporary place : Location}

theorem spares_marks {before after : Disk} (h : Spares opened (· = temporary) before after)
    (result : Except DeliveryError Outcome) : Spares opened (Marks temporary place result) before after :=
  h.mono (fun _ _ => id) fun _ => Or.inl

theorem spares_marks_ok {before after : Disk}
    (h : Spares opened (fun location => location = temporary ∨ location = place) before after)
    (outcome : Outcome) : Spares opened (Marks temporary place (.ok outcome)) before after :=
  h.mono (fun _ _ => id) fun _ => Or.imp_right fun hplace => ⟨hplace, outcome, rfl⟩

variable {disk : Disk} {target : Path}
  (hstaging : disk.Leads (staging target) temporary)
  (hends : ∀ location, disk.EndsAt target location → location = place) (contents : String)

include hstaging hends

theorem spares_writeNew :
    Spares opened (Marks temporary place (played (writeNew target contents) disk).1) disk
      (played (writeNew target contents) disk).2 := by
  unfold writeNew
  rw [played_bind, played_session, run_exists?]
  dsimp only
  split
  · exact Spares.refl disk
  rw [played_bind, played_orBlame, run_send]
  have hwrite : Spares opened (· = temporary) disk _ := spares_writeFile hstaging contents
  generalize disk.answer (.write (staging target) contents) = answered at hwrite ⊢
  obtain ⟨fault | done, written⟩ := answered
  · exact spares_marks hwrite _
  dsimp only [Except.mapError]
  rw [played_send]
  have hlater := hstaging.later hwrite.changes
  have hendsLater (location : Location) (h : written.EndsAt target location) : location = place :=
    hends location (h.congr hwrite.link? hwrite.here)
  have hlink : Spares opened (fun l => l = temporary ∨ l = place) written _ :=
    (spares_link hlater hendsLater).mono (fun _ _ => id) fun _ => Or.inr
  have hrefused (fault : FileFault) (h : (written.answer (.link (staging target) target)).1 = .error fault) :=
    answer_of_refused h
  generalize written.answer (.link (staging target) target) = answered at hlink hrefused ⊢
  obtain ⟨reply, linked⟩ := answered
  dsimp only at hlink hrefused ⊢
  rw [played_send]
  have hremove : Spares opened (· = temporary) linked _ := spares_remove (hlater.later hlink.changes)
  generalize (linked.answer (.remove (staging target))).2 = removed at hremove ⊢
  cases reply with
  | ok done =>
    refine spares_marks_ok ?_ .written
    exact (hwrite.mono (fun _ _ => id) fun _ => Or.inl).trans
      (hlink.trans (hremove.mono (fun _ _ => id) fun _ => Or.inl))
  | error fault =>
    -- the link has been refused, so that only the temporary file has come and gone
    obtain rfl := hrefused fault rfl
    have hwhole := hwrite.trans hremove
    split <;> exact spares_marks hwhole _

theorem spares_replace (hlink : disk.tree.link? place = none) (hne : place ≠ temporary) :
    Spares opened (Marks temporary place (played (replace target contents) disk).1) disk
      (played (replace target contents) disk).2 := by
  unfold replace
  rw [played_bind, played_orBlame, run_send]
  have hwrite : Spares opened (· = temporary) disk _ := spares_writeFile hstaging contents
  generalize disk.answer (.write (staging target) contents) = answered at hwrite ⊢
  obtain ⟨fault | done, written⟩ := answered
  · exact spares_marks hwrite _
  dsimp only [Except.mapError] at hwrite ⊢
  rw [played_bind, played_orBlame, run_send]
  have hendsLater (location : Location) (h : written.EndsAt target location) : location = place :=
    hends location (h.congr hwrite.link? hwrite.here)
  have hrename : Spares opened (fun l => l = temporary ∨ l = place) written _ :=
    spares_rename (hstaging.later hwrite.changes) hendsLater (by rw [hwrite.link?, hlink]) hne
  have hrefused (fault : FileFault) (h : (written.answer (.rename (staging target) target)).1 = .error fault) :=
    answer_of_refused h
  generalize written.answer (.rename (staging target) target) = answered at hrename hrefused ⊢
  obtain ⟨fault | done, renamed⟩ := answered
  · -- the temporary file has been written, and stays
    obtain rfl : renamed = written := hrefused fault rfl
    exact spares_marks hwrite _
  · exact spares_marks_ok ((hwrite.mono (fun _ _ => id) fun _ => Or.inl).trans hrename) .written

end Files

end Delivery

end EntityForge
