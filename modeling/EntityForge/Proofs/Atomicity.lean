import EntityForge.Proofs.Attempt

/-!
What an attempt to put a file in its place leaves when it is cut off, and what the same attempt makes of that
later.

An attempt may be cut off before each of its requests, after the last one, and in the middle of a write. At the
place of the file there is then what was there before, or all of the contents. Whatever the temporary file holds,
the same attempt comes to the same end if it does not fail. Main statements: `amid_of_halts` and `attempt_atomic`.
-/

namespace EntityForge

namespace Session

variable {α β : Type} {disk halted : Disk}

/-- The disks that a session may leave when it is cut off: before a request, at the end, or in a write. How much of
the contents has been written by then is left open. -/
inductive Halts {α : Type} : Session α → Disk → Disk → Prop where
  | now (session : Session α) (disk : Disk) : Halts session disk disk
  | within (path : Path) (contents : String) (next : Except FileFault Unit → Session α) (disk : Disk)
      (text : String) : Halts (.ask (.write path contents) next) disk (disk.answer (.write path text)).2
  | later (request : Request) (next : request.Reply → Session α) {disk halted : Disk}
      (rest : Halts (next (disk.answer request).1) (disk.answer request).2 halted) :
      Halts (.ask request next) disk halted

namespace Halts

theorem at_end (session : Session α) (disk : Disk) : session.Halts disk (session.run disk).2 := by
  induction session generalizing disk with
  | done result => exact .now _ disk
  | ask request next ih => exact .later request next (ih _ _)

theorem of_done {result : α} (h : (Session.done result).Halts disk halted) : halted = disk := by
  cases h
  rfl

/-- What is cut off is one part of a session or the other. -/
theorem of_bind {session : Session α} {f : α → Session β} (h : (session.bind f).Halts disk halted) :
    session.Halts disk halted ∨ (f (session.run disk).1).Halts (session.run disk).2 halted := by
  induction session generalizing disk with
  | done result => exact Or.inr h
  | ask request next ih =>
    cases h with
    | now => exact Or.inl (.now _ _)
    | within path contents rest _ text => exact Or.inl (.within path contents next _ text)
    | later request rest h => exact (ih _ h).imp_left (.later request next)

theorem of_send {request : Request} (h : (send request).Halts disk halted) :
    halted = disk ∨ halted = (disk.answer request).2 ∨
      ∃ path contents text, request = .write path contents ∧ halted = (disk.answer (.write path text)).2 := by
  cases h with
  | now => exact Or.inl rfl
  | within path contents next disk text => exact Or.inr (Or.inr ⟨path, contents, text, rfl, rfl⟩)
  | later request next rest => exact Or.inr (Or.inl rest.of_done)

/-- Only a write is cut off in its middle. -/
theorem of_whole {request : Request} (hwhole : ∀ path contents, request ≠ .write path contents)
    (h : (send request).Halts disk halted) : halted = disk ∨ halted = (disk.answer request).2 := by
  rcases h.of_send with hsame | hanswer | ⟨path, contents, text, hwrite, -⟩
  · exact Or.inl hsame
  · exact Or.inr hanswer
  · exact absurd hwrite (hwhole path contents)

theorem of_exists? {path : Path} (h : (exists? path).Halts disk halted) : halted = disk := by
  rcases of_bind h with hprobe | hrest
  · rcases hprobe.of_whole (by simp) with rfl | rfl
    · rfl
    · rw [Disk.answer_probe]
  · rw [Delivery.run_send, Disk.answer_probe] at hrest
    split at hrest <;> exact hrest.of_done

end Halts

end Session

namespace Delivery

open Disk

variable {α β : Type} {disk halted : Disk}

theorem halts_bind {first : Attempt α} {next : α → Attempt β}
    (h : Session.Halts (first >>= next).run disk halted) :
    Session.Halts first.run disk halted ∨
      ∃ value, (played first disk).1 = .ok value ∧ Session.Halts (next value).run (played first disk).2 halted := by
  rw [ExceptT.run_bind] at h
  rcases Session.Halts.of_bind h with hfirst | hnext
  · exact Or.inl hfirst
  · unfold played
    cases hplayed : (first.run.run disk).1 with
    | ok value =>
      rw [hplayed] at hnext
      exact Or.inr ⟨value, rfl, hnext⟩
    | error failure =>
      rw [hplayed] at hnext
      rw [Session.Halts.of_done hnext]
      exact Or.inl (.at_end _ disk)

theorem halts_pure {value : α} (h : Session.Halts (pure value : Attempt α).run disk halted) : halted = disk :=
  Session.Halts.of_done h

theorem halts_throw {failure : DeliveryError} (h : Session.Halts (throw failure : Attempt α).run disk halted) :
    halted = disk := Session.Halts.of_done h

theorem halts_session {session : Session α} (h : Session.Halts (liftM session : Attempt α).run disk halted) :
    session.Halts disk halted := by
  rcases Session.Halts.of_bind h with hsession | hend
  · exact hsession
  · rw [Session.Halts.of_done hend]
    exact .at_end session disk

theorem halts_orBlame {path : Path} {reply : Session (Except FileFault α)}
    (h : Session.Halts (orBlame path reply).run disk halted) : reply.Halts disk halted := by
  rcases Session.Halts.of_bind h with hreply | hend
  · exact hreply
  · rw [Session.Halts.of_done hend]
    exact .at_end reply disk

theorem answer_of_played {request : Request} {path : Path} {value : request.Answer}
    (h : (played (orBlame path (Session.send request)) disk).1 = .ok value) :
    disk.answer request = (.ok value, (played (orBlame path (Session.send request)) disk).2) := by
  obtain ⟨hreply, hafter⟩ := reply_of_request h
  rw [hafter, ← hreply]

/-- What an attempt that is cut off may have made of a disk. The temporary file is there or not, whole or in part,
and the file may have got its place. -/
structure Amid (policy : WritePolicy) (target : Path) (contents : String) (temporary : Location)
    (disk halted : Disk) : Prop where
  here : halted.here = disk.here
  others : ∀ location, location ≠ temporary → halted.tree.get? location = disk.tree.get? location ∨
    disk.EndsAt target location ∧ halted.tree.get? location = some (.file contents) ∧
      disk.tree.get? location ≠ some .directory ∧ (policy = .skipIfExists → disk.tree.get? location = none)
  temporary : halted.tree.get? temporary = disk.tree.get? temporary ∨
    disk.tree.get? temporary ≠ some .directory ∧
      (halted.tree.get? temporary = none ∨ ∃ text, halted.tree.get? temporary = some (.file text))

namespace Amid

variable {policy : WritePolicy} {target : Path} {contents : String} {temporary location : Location}
  {between after : Disk}

theorem refl (disk : Disk) : Amid policy target contents temporary disk disk :=
  ⟨rfl, fun _ _ => Or.inl rfl, Or.inl rfl⟩

variable (h : Amid policy target contents temporary disk between)

include h

theorem not_directory (hfree : between.tree.get? temporary ≠ some .directory) :
    disk.tree.get? temporary ≠ some .directory := by
  rcases h.temporary with hsame | ⟨hfree, -⟩
  · rwa [← hsame]
  · exact hfree

/-- Only the temporary file has changed. -/
theorem turns {occupant? : Option Entry} (hfree : between.tree.get? temporary ≠ some .directory)
    (hturns : Turns temporary occupant? between after)
    (hentry : occupant? = none ∨ ∃ text, occupant? = some (.file text)) :
    Amid policy target contents temporary disk after where
  here := hturns.here.trans h.here
  others location hne := by
    rw [hturns.other hne]
    exact h.others location hne
  temporary := by
    rw [hturns.self]
    exact Or.inr ⟨h.not_directory hfree, hentry⟩

/-- Nothing has come up but files. -/
theorem part {entry : Entry} (hentry : ∀ text, entry ≠ .file text) (hthere : between.tree.get? location = some entry) :
    disk.tree.get? location = some entry := by
  by_cases htemporary : location = temporary
  · subst htemporary
    rcases h.temporary with hsame | ⟨-, hnone | ⟨text, hfile⟩⟩
    · rw [← hsame, hthere]
    · rw [hthere] at hnone
      cases hnone
    · rw [hthere] at hfile
      exact absurd (Option.some.inj hfile) (hentry text)
  · rcases h.others location htemporary with hsame | ⟨-, hfile, -, -⟩
    · rw [← hsame, hthere]
    · rw [hthere] at hfile
      exact absurd (Option.some.inj hfile) (hentry contents)

theorem elsewhere (htemporary : location ≠ temporary) (hends : ¬disk.EndsAt target location) :
    between.tree.get? location = disk.tree.get? location := by
  rcases h.others location htemporary with hsame | ⟨hplace, -, -, -⟩
  · exact hsame
  · exact absurd hplace hends

theorem link?_temporary (hlink : disk.tree.link? temporary = none) : between.tree.link? temporary = none := by
  rw [FileTree.link?_eq_none] at hlink ⊢
  intro path hthere
  exact hlink path (h.part (by simp) hthere)

/-- Where nothing is overwritten, all paths end where they did. -/
theorem endsAt_iff (hlink : disk.tree.link? temporary = none) (hskip : policy = .skipIfExists) {path : Path}
    {place : Location} : between.EndsAt path place ↔ disk.EndsAt path place := by
  have hlinks (place : Location) : between.tree.link? place = disk.tree.link? place := by
    by_cases htemporary : place = temporary
    · rw [htemporary, hlink, h.link?_temporary hlink]
    · rcases h.others place htemporary with hsame | ⟨-, hfile, -, hnone⟩
      · rw [FileTree.link?, FileTree.link?, hsame]
      · simp [FileTree.link?, hfile, hnone hskip, Entry.target?]
  exact ⟨EndsAt.congr hlinks h.here, EndsAt.congr (fun place => (hlinks place).symm) h.here.symm⟩

variable (hstaging : between.Leads (staging target) temporary)

include hstaging

theorem write (text : String) :
    Amid policy target contents temporary disk (between.answer (.write (staging target) text)).2 := by
  cases hreply : (between.answer (.write (staging target) text)).1 with
  | error fault =>
    rw [answer_of_refused hreply]
    exact h
  | ok done =>
    obtain ⟨hturns, hfree⟩ := hstaging.turns_of_write hreply
    exact h.turns hfree hturns (Or.inr ⟨text, rfl⟩)

theorem remove : Amid policy target contents temporary disk (between.answer (.remove (staging target))).2 := by
  cases hreply : (between.answer (.remove (staging target))).1 with
  | error fault =>
    rw [answer_of_refused hreply]
    exact h
  | ok done =>
    obtain ⟨hturns, hfree⟩ := hstaging.turns_of_removed hreply
    exact h.turns hfree hturns (Or.inl rfl)

variable (hfile : between.tree.get? temporary = some (.file contents))
  (hends : ∀ place, between.EndsAt target place → disk.EndsAt target place)

include hfile hends

theorem link : Amid policy target contents temporary disk (between.answer (.link (staging target) target)).2 := by
  cases hreply : (between.answer (.link (staging target) target)).1 with
  | error fault =>
    rw [answer_of_refused hreply]
    exact h
  | ok done =>
    obtain ⟨-, place, hplace, hvacant, hturns⟩ := hstaging.turns_of_link hfile hreply
    have hne : place ≠ temporary := by
      rintro rfl
      rw [hfile] at hvacant
      cases hvacant
    have hnone : disk.tree.get? place = none := by
      rcases h.others place hne with hsame | ⟨-, hput, -, -⟩
      · rw [← hsame, hvacant]
      · rw [hput] at hvacant
        cases hvacant
    refine ⟨hturns.here.trans h.here, fun location hlocation => ?_, ?_⟩
    · by_cases hsame : location = place
      · rw [hsame, hturns.self]
        exact Or.inr ⟨hends place hplace, rfl, by simp [hnone], fun _ => hnone⟩
      · rw [hturns.other hsame]
        exact h.others location hlocation
    · rw [hturns.other hne.symm]
      exact h.temporary

theorem rename (hpolicy : policy = .overwrite) :
    Amid policy target contents temporary disk (between.answer (.rename (staging target) target)).2 := by
  cases hreply : (between.answer (.rename (staging target) target)).1 with
  | error fault =>
    rw [answer_of_refused hreply]
    exact h
  | ok done =>
    obtain ⟨-, place, hplace, hfree, hhere, hget⟩ := hstaging.turns_of_rename hfile hreply
    have hne : place ≠ temporary := place_ne_temporary hplace hstaging.endsAt
    refine ⟨hhere.trans h.here, fun location hlocation => ?_, ?_⟩
    · rw [hget]
      by_cases hsame : location = place
      · rw [hsame, Function.update_self]
        refine Or.inr ⟨hends place hplace, rfl, ?_, fun hskip => ?_⟩
        · rcases h.others place hne with hkept | ⟨-, -, hbefore, -⟩
          · rwa [← hkept]
          · exact hbefore
        · rw [hpolicy] at hskip
          cases hskip
      · rw [Function.update_of_ne hsame, Function.update_of_ne hlocation]
        exact h.others location hlocation
    · rw [hget, Function.update_of_ne hne.symm, Function.update_self]
      exact Or.inr ⟨h.not_directory (by simp [hfile]), Or.inl rfl⟩

end Amid

section Halts

variable {target : Path} {contents : String} {temporary : Location} (hstaging : disk.Leads (staging target) temporary)

include hstaging

/-- In a write of the temporary file, or before or after it. -/
theorem amid_of_halts_write (policy : WritePolicy)
    (h : Session.Halts (orBlame (staging target) (Session.send (.write (staging target) contents))).run disk halted) :
    Amid policy target contents temporary disk halted := by
  rcases (halts_orBlame h).of_send with rfl | rfl | ⟨path, whole, text, hwrite, rfl⟩
  · exact .refl halted
  · exact (Amid.refl disk).write hstaging contents
  · cases hwrite
    exact (Amid.refl disk).write hstaging text

theorem amid_of_halts_writeNew (h : Session.Halts (writeNew target contents).run disk halted) :
    Amid .skipIfExists target contents temporary disk halted := by
  unfold writeNew at h
  rcases halts_bind h with hprobe | ⟨found, -, h⟩
  · rw [(halts_session hprobe).of_exists?]
    exact .refl disk
  rw [played_session, run_exists?] at h
  split at h
  · rw [halts_pure h]
    exact .refl disk
  rcases halts_bind h with hwrite | ⟨done, hdone, h⟩
  · exact amid_of_halts_write hstaging _ hwrite
  have hwrite := answer_of_played hdone
  generalize (played (orBlame (staging target) _) disk).2 = written at hwrite h
  obtain ⟨hturns, hfree, -, hlater, hends⟩ := staged_of_write hstaging hwrite
  have hwritten : Amid .skipIfExists target contents temporary disk written :=
    (Amid.refl disk).turns hfree hturns (Or.inr ⟨contents, rfl⟩)
  have hlinked := hwritten.link hlater hturns.self fun place => (hends target place).1
  rcases halts_bind h with hlink | ⟨reply, -, h⟩
  · rcases (halts_session hlink).of_whole (by simp) with rfl | rfl
    · exact hwritten
    · exact hlinked
  have hlast := hlater.later (hlater.changes_link hturns.self target)
  rw [played_session, run_send] at h
  dsimp only at h
  generalize (written.answer (.link (staging target) target)).2 = linked at hlinked hlast h
  have hremoved := hlinked.remove hlast
  rcases halts_bind h with hremove | ⟨gone, -, h⟩
  · rcases (halts_session hremove).of_whole (by simp) with rfl | rfl
    · exact hlinked
    · exact hremoved
  rw [played_session, run_send] at h
  dsimp only at h
  generalize (linked.answer (.remove (staging target))).2 = removed at hremoved h
  split at h
  · rwa [halts_pure h]
  · rwa [halts_pure h]
  · rwa [halts_throw h]

theorem amid_of_halts_replace (h : Session.Halts (replace target contents).run disk halted) :
    Amid .overwrite target contents temporary disk halted := by
  unfold replace at h
  rcases halts_bind h with hwrite | ⟨done, hdone, h⟩
  · exact amid_of_halts_write hstaging _ hwrite
  have hwrite := answer_of_played hdone
  generalize (played (orBlame (staging target) _) disk).2 = written at hwrite h
  obtain ⟨hturns, hfree, -, hlater, hends⟩ := staged_of_write hstaging hwrite
  have hwritten : Amid .overwrite target contents temporary disk written :=
    (Amid.refl disk).turns hfree hturns (Or.inr ⟨contents, rfl⟩)
  have hrenamed := hwritten.rename hlater hturns.self (fun place => (hends target place).1) rfl
  rcases halts_bind h with hrename | ⟨renamed, hdone, h⟩
  · rcases (halts_orBlame hrename).of_whole (by simp) with rfl | rfl
    · exact hwritten
    · exact hrenamed
  · rwa [halts_pure h, (reply_of_request hdone).2]

theorem amid_of_halts (policy : WritePolicy)
    (h : Session.Halts (attempt policy target contents).run disk halted) :
    Amid policy target contents temporary disk halted := by
  cases policy with
  | skipIfExists => exact amid_of_halts_writeNew hstaging h
  | overwrite => exact amid_of_halts_replace hstaging h

end Halts

/-- What an attempt comes to that follows one which was cut off: the file is in its place, or what was there before
the first attempt is, if it is to be left alone. -/
structure Recovers (policy : WritePolicy) (target : Path) (contents : String) (temporary : Location) (disk : Disk)
    (outcome : Outcome) (again : Disk) : Prop where
  at_place : ∀ location, disk.EndsAt target location → again.tree.get? location =
    if policy = .skipIfExists ∧ disk.tree.get? location ≠ none then disk.tree.get? location
    else some (.file contents)
  others : ∀ location, location ≠ temporary → ¬disk.EndsAt target location →
    again.tree.get? location = disk.tree.get? location
  temporary : outcome = .written → again.tree.get? temporary = none

section Again

variable {target : Path} {contents : String} {temporary : Location} {outcome : Outcome} {again : Disk}
  (hends : disk.EndsAt (staging target) temporary) (hlink : disk.tree.link? temporary = none)

include hends

/-- The file has got its place, whether it had it before or not. -/
theorem recovers_of_placed {policy : WritePolicy} (h : Amid policy target contents temporary disk halted)
    {place : Location} (hplace : disk.EndsAt target place)
    (hvacant : policy = .skipIfExists → disk.tree.get? place = none)
    (hget : again.tree.get? = Function.update (Function.update halted.tree.get? temporary none) place
      (some (.file contents))) :
    Recovers policy target contents temporary disk outcome again := by
  have hne := place_ne_temporary hplace hends
  refine ⟨fun location hlocation => ?_, fun location htemporary hnot => ?_, fun _ => ?_⟩
  · obtain rfl := hplace.unique hlocation
    rw [hget, Function.update_self, if_neg]
    rintro ⟨hskip, hthere⟩
    exact hthere (hvacant hskip)
  · have hother : location ≠ place := by
      rintro rfl
      exact hnot hplace
    rw [hget, Function.update_of_ne hother, Function.update_of_ne htemporary, h.elsewhere htemporary hnot]
  · rw [hget, Function.update_of_ne hne.symm, Function.update_self]

include hlink

theorem recovers_of_writeNew (h : Amid .skipIfExists target contents temporary disk halted)
    (hdone : played (writeNew target contents) halted = (.ok outcome, again)) :
    Recovers .skipIfExists target contents temporary disk outcome again := by
  have hiff {path : Path} {place : Location} : halted.EndsAt path place ↔ disk.EndsAt path place :=
    h.endsAt_iff hlink rfl
  have hupshot := upshot_of_attempt (leads_of_endsAt_staging (hiff.2 hends) (h.link?_temporary hlink))
    .skipIfExists contents
  rw [attempt, hdone] at hupshot
  -- what is left alone is what was there before the first attempt, or what that one has put there
  have hleft (hkept : ∀ place, place ≠ temporary → again.tree.get? place = halted.tree.get? place)
      (hthere : ∀ place, halted.EndsAt target place → halted.tree.get? place ≠ none)
      (hgone : outcome = .written → again.tree.get? temporary = none) :
      Recovers .skipIfExists target contents temporary disk outcome again := by
    refine ⟨fun place hplace => ?_, fun place hne hnot => by rw [hkept place hne, h.elsewhere hne hnot], hgone⟩
    have hne := place_ne_temporary hplace hends
    rw [hkept place hne]
    rcases h.others place hne with hsame | ⟨-, hfile, -, hnone⟩
    · rw [hsame, if_pos ⟨rfl, hsame ▸ hthere place (hiff.2 hplace)⟩]
    · rw [hfile, if_neg (by simp [hnone rfl])]
  cases hupshot with
  | found skip there => exact hleft (fun _ _ => rfl) there (by simp)
  | withdrawn skip temporary_free turns reason =>
    rcases reason with ⟨-, there⟩ | ⟨fault, hfault⟩
    · exact hleft (fun _ => turns.other) there fun _ => turns.self
    · cases hfault
  | @placed place _ walked ends vacant place_free temporary_free here get? =>
    have hplace := hiff.1 ends
    refine recovers_of_placed hends h hplace (fun _ => ?_) get?
    rcases h.others place (place_ne_temporary hplace hends) with hsame | ⟨-, -, -, hnone⟩
    · rw [← hsame, vacant rfl]
    · exact hnone rfl

theorem recovers_of_replace (h : Amid .overwrite target contents temporary disk halted)
    (hdone : played (replace target contents) halted = (.ok outcome, again)) :
    Recovers .overwrite target contents temporary disk outcome again := by
  -- a link in the place of the file may be gone, but paths that can still be walked end where they did
  have hdirectories (place : Location) (hplace : halted.tree.get? place = some .directory) :=
    h.part (by simp) hplace
  have hpartLinks (place : Location) (path : Path) (hplace : halted.tree.get? place = some (.link path)) :=
    h.part (by simp) hplace
  obtain ⟨follow, found, hfound⟩ := place_of_replace (congrArg Prod.fst hdone)
  have hstaging := (EndsAt.iff_of_part h.here hdirectories hpartLinks hfound).2 hends
  have hupshot := upshot_of_attempt (leads_of_endsAt_staging hstaging (h.link?_temporary hlink)) .overwrite contents
  rw [attempt, hdone] at hupshot
  cases hupshot with
  | found skip there => cases skip
  | withdrawn skip temporary_free turns reason => cases skip
  | @placed place _ walked ends vacant place_free temporary_free here get? =>
    obtain ⟨staged, last, hturns, hlast⟩ := walked
    have hkept {entry : Entry} (hentry : ∀ text, entry ≠ .file text) {place : Location}
        (hthere : staged.tree.get? place = some entry) : halted.tree.get? place = some entry := by
      have hother : place ≠ temporary := by
        rintro rfl
        rw [hturns.self] at hthere
        exact hentry contents (Option.some.inj hthere).symm
      rw [← hturns.other hother, hthere]
    have hlinks (place : Location) : halted.tree.link? place = staged.tree.link? place := by
      by_cases htemporary : place = temporary
      · rw [htemporary, h.link?_temporary hlink, FileTree.link?, hturns.self]
        rfl
      · rw [FileTree.link?, FileTree.link?, hturns.other htemporary]
    have hstagedEnds : staged.EndsAt target place := EndsAt.congr hlinks hturns.here.symm ends
    have hplace : disk.EndsAt target place :=
      (EndsAt.iff_of_part (hturns.here.trans h.here) (fun _ hthere => h.part (by simp) (hkept (by simp) hthere))
        (fun _ _ hthere => h.part (by simp) (hkept (by simp) hthere)) hlast).1 hstagedEnds
    exact recovers_of_placed hends h hplace (fun hskip => by cases hskip) get?

end Again

end Delivery

open Delivery Disk

/-- Wherever an attempt is cut off, there is at the place of the file what was there before, or all of the contents.
The same attempt, made on what is left, brings the file to its place if it does not fail. -/
theorem attempt_atomic (policy : WritePolicy) (target : Path) (contents : String) {disk halted : Disk}
    {temporary : Location} (hends : disk.EndsAt (staging target) temporary)
    (hlink : disk.tree.link? temporary = none)
    (hhalts : Session.Halts (attempt policy target contents).run disk halted) :
    (∀ place, disk.EndsAt target place → halted.tree.get? place = disk.tree.get? place ∨
      halted.tree.get? place = some (.file contents)) ∧
      (∀ location, location ≠ temporary → ¬disk.EndsAt target location →
        halted.tree.get? location = disk.tree.get? location) ∧
      ∀ outcome again, played (attempt policy target contents) halted = (.ok outcome, again) →
        Recovers policy target contents temporary disk outcome again := by
  have hamid := amid_of_halts (leads_of_endsAt_staging hends hlink) policy hhalts
  refine ⟨fun place hplace => ?_, fun location => hamid.elsewhere, fun outcome again hdone => ?_⟩
  · exact (hamid.others place (place_ne_temporary hplace hends)).imp_right fun hput => hput.2.1
  · cases policy with
    | skipIfExists => exact recovers_of_writeNew hends hlink hamid hdone
    | overwrite => exact recovers_of_replace hends hlink hamid hdone

/-- A file that is to be replaced. -/
def outdated : Disk where
  tree := ⟨[(["out"], .directory), (["out", "all.json"], .file "old")]⟩
  here := []

theorem attempt_atomic_for_outdated :
    let target : Path := ⟨"out/all.json"⟩
    let halted := (outdated.answer (.write (staging target) "ne")).2
    let again := (played (attempt .overwrite target "new") halted).2
    outdated.EndsAt (staging target) ["out", ".all.json.tmp"] ∧
      outdated.tree.link? ["out", ".all.json.tmp"] = none ∧
      Session.Halts (attempt .overwrite target "new").run outdated halted ∧
      halted.tree.get? ["out", ".all.json.tmp"] = some (.file "ne") ∧
      halted.tree.get? ["out", "all.json"] = outdated.tree.get? ["out", "all.json"] ∧
      played (attempt .overwrite target "new") halted = (.ok .written, again) ∧
      Recovers .overwrite target "new" ["out", ".all.json.tmp"] outdated .written again := by
  intro target halted again
  have hends : outdated.EndsAt (staging target) ["out", ".all.json.tmp"] :=
    ⟨["out"], ".all.json.tmp", by decide +kernel, by decide, by decide +kernel⟩
  have hhalts : Session.Halts (attempt .overwrite target "new").run outdated halted :=
    .within (staging target) "new" _ outdated "ne"
  have hdone : played (attempt .overwrite target "new") halted = (.ok .written, again) := by decide +kernel
  exact ⟨hends, by decide, hhalts, by decide +kernel, by decide +kernel, hdone,
    (attempt_atomic .overwrite target "new" hends (by decide) hhalts).2.2 .written again hdone⟩

end EntityForge
