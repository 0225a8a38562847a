import EntityForge.Delivery
import EntityForge.Proofs.Change

/-!
What a delivery does to a disk.

Below a root without links every file goes to the place that its path says, by way of a temporary file
beside it. Nothing that is there is touched but temporary files and the places of files that are to be
overwritten; and those hold what was delivered to them last. The same is said of any files whose paths lead to
places without links. Main statements: `lands_writeEach` and `read_of_stages`.
-/

namespace EntityForge

/-- The name of a temporary file at the end of a way. -/
def IsTemporary (location : Location) : Prop :=
  ∃ above name, location = above ++ ["." ++ name ++ ".tmp"]

namespace Disk

/-- The place a path stands for, when whatever is missing is taken for a directory. -/
def site (disk : Disk) (root : Path) : Location :=
  disk.tree.landing FileTree.linkLimit (FileTree.startOf root disk.here) (FileTree.steps root)

/-- There are only directories and files below a path. -/
def IsPlain (disk : Disk) (root : Path) : Prop :=
  ∀ below, disk.tree.link? (disk.site root ++ below) = none

theorem isPlain_of_entries {disk : Disk} (h : ∀ e ∈ disk.tree.entries, e.2.target? = none)
    (root : Path) : disk.IsPlain root := by
  intro below
  exact FileTree.link?_of_entries h _

section Changes

variable {fresh touched : Location → Prop} {before after : Disk} {root : Path}

theorem Changes.site (h : Changes fresh touched before after) (root : Path) :
    after.site root = before.site root := by
  unfold Disk.site
  rw [h.landing, h.here]

theorem IsPlain.later (hplain : before.IsPlain root) (h : Changes fresh touched before after) :
    after.IsPlain root := by
  intro below
  rw [h.site, h.link?]
  exact hplain below

end Changes

section Leads

variable {disk : Disk} {root path : Path}

theorem startOf_join {here : Location} (h : path.isAbsolute = false) :
    FileTree.startOf (root.join path) here = FileTree.startOf root here := by
  unfold FileTree.startOf
  rw [Path.isAbsolute_join h]

theorem leads_join (hplain : disk.IsPlain root) (hpath : path.IsProper) :
    disk.Leads (root.join path) (disk.site root ++ path.parts) where
  ends := by
    obtain ⟨names, name, hparts⟩ : ∃ names name, path.parts = names ++ [name] :=
      ⟨_, _, (List.dropLast_append_getLast path.parts_ne_nil).symm⟩
    refine ⟨FileTree.steps root ++ names, name, hpath name (by simp [hparts]), ?_, ?_⟩
    · rw [Path.steps_join hpath.isAbsolute_eq, hpath.steps_eq, hparts, List.append_assoc]
    · have hnames (n : String) (hn : n ∈ names) : IsName n := hpath n (by simp [hparts, hn])
      rw [hparts, ← List.append_assoc, startOf_join hpath.isAbsolute_eq]
      exact congrArg (· ++ [name]) (FileTree.landing_names hnames fun below _ _ => hplain below).symm
  open_end := by
    rw [Path.endsInSlash_join hpath.isAbsolute_eq hpath.text_ne_empty, hpath.endsInSlash_eq]
  unlinked := hplain path.parts

theorem isName_temporary (name : String) : IsName ("." ++ name ++ ".tmp") := by
  have hlength : ".tmp".length ≤ ("." ++ name ++ ".tmp").length := by
    rw [String.length_append]
    omega
  constructor <;> intro h <;> rw [h] at hlength <;> exact absurd hlength (by decide)

/-- The temporary file of a path lies in the directory that the path lies in. -/
theorem staging_eq {target : Path} {names : List String} {name : String}
    (hway : target.way = names ++ [name]) (hup : name ≠ "..") :
    ∃ parent : Path, Delivery.staging target = parent.join ⟨"." ++ name ++ ".tmp"⟩ ∧
      parent.way = names ∧ parent.isAbsolute = target.isAbsolute ∧ parent ∈ target.ancestors := by
  obtain ⟨hfile, parent, hparent, hparentWay, habsolute⟩ := Path.parent?_of_way hway hup
  refine ⟨parent, ?_, hparentWay, habsolute, List.mem_of_mem_tail (List.mem_of_mem_head? hparent)⟩
  simp only [Delivery.staging, Path.withFileName, hfile, hparent, Option.getD_some]

theorem isProper_temporary {name : String} (hslash : '/' ∉ name.toList) :
    (Path.mk ("." ++ name ++ ".tmp")).IsProper ∧
      (Path.mk ("." ++ name ++ ".tmp")).parts = ["." ++ name ++ ".tmp"] := by
  have hparts : (Path.mk ("." ++ name ++ ".tmp")).parts = ["." ++ name ++ ".tmp"] := by
    refine Path.parts_of_not_mem ?_
    simpa using hslash
  refine ⟨fun part hpart => ?_, hparts⟩
  rw [hparts, List.mem_singleton] at hpart
  rw [hpart]
  exact isName_temporary name

/-- Idle parts of a path do not change where names that follow it lead to. -/
theorem landing_of_way (hplain : disk.IsPlain root) {parent : Path} {names : List String}
    (hnames : ∀ name ∈ names, IsName name) (hway : parent.way = root.way ++ names)
    (habsolute : parent.isAbsolute = root.isAbsolute) :
    disk.tree.landing FileTree.linkLimit (FileTree.startOf parent disk.here)
      (FileTree.steps parent) = disk.site root ++ names := by
  have hstart := FileTree.startOf_congr habsolute disk.here
  have hsite : disk.tree.landing FileTree.linkLimit (FileTree.startOf root disk.here)
      ((FileTree.steps root).filter (· ≠ ".")) = disk.site root := FileTree.landing_filter ..
  rw [hstart, ← FileTree.landing_filter, ← Path.way_eq_filter, hway, Path.way_eq_filter, ← hsite]
  refine FileTree.landing_names hnames fun below _ _ => ?_
  rw [hsite]
  exact hplain below

/-- A path that leads down from a root without links leads to a place below that of the root. -/
theorem site_join_of_plain (hplain : disk.IsPlain root) (hpath : path.Descends) :
    disk.site (root.join path) = disk.site root ++ path.way :=
  landing_of_way hplain (fun _ => hpath.isName_of_mem_way) (Path.way_join hpath.relative)
    (Path.isAbsolute_join hpath.relative)

theorem leads_staging (hplain : disk.IsPlain root) (hpath : path.Descends) {names : List String}
    {name : String} (hway : path.way = names ++ [name]) :
    disk.Leads (Delivery.staging (root.join path))
      (disk.site root ++ (names ++ ["." ++ name ++ ".tmp"])) := by
  have hmem : name ∈ path.way := by simp [hway]
  have hnames (part : String) (hpart : part ∈ names) : IsName part :=
    hpath.isName_of_mem_way (by simp [hway, hpart])
  have hwhole : (root.join path).way = (root.way ++ names) ++ [name] := by
    rw [Path.way_join hpath.relative, hway, List.append_assoc]
  obtain ⟨parent, hstaging, hparentWay, habsolute, -⟩ :=
    staging_eq hwhole (hpath.isName_of_mem_way hmem).ne_up
  rw [Path.isAbsolute_join hpath.relative] at habsolute
  obtain ⟨hproper, hparts⟩ := isProper_temporary (Path.not_mem_of_mem_parts (List.mem_filter.1 hmem).1)
  refine ⟨⟨FileTree.steps parent, "." ++ name ++ ".tmp", isName_temporary name, ?_, ?_⟩, ?_, hplain _⟩
  · rw [hstaging, Path.steps_join hproper.isAbsolute_eq, hproper.steps_eq, hparts]
  · rw [hstaging, startOf_join hproper.isAbsolute_eq, landing_of_way hplain hnames hparentWay habsolute,
      List.append_assoc]
  · rw [hstaging, Path.endsInSlash_join hproper.isAbsolute_eq hproper.text_ne_empty,
      hproper.endsInSlash_eq]

/-- The temporary file of a path without idle parts. -/
theorem exists_leads_staging (hplain : disk.IsPlain root) (hpath : path.IsProper) :
    ∃ location, IsTemporary location ∧
      disk.Leads (Delivery.staging (root.join path)) location := by
  obtain ⟨names, name, hway, -, -⟩ := hpath.descends.exists_way
  exact ⟨_, ⟨disk.site root ++ names, name, by rw [List.append_assoc]⟩,
    leads_staging hplain hpath.descends hway⟩

/-- A path that leads to a place without a link, as does that of the temporary file beside it. -/
structure Stages (disk : Disk) (target : Path) (place : Location) : Prop where
  leads : disk.Leads target place
  staged : ∃ temporary, IsTemporary temporary ∧ disk.Leads (Delivery.staging target) temporary

theorem Stages.later {fresh touched : Location → Prop} {after : Disk} {target : Path} {place : Location}
    (h : disk.Stages target place) (hchanges : Changes fresh touched disk after) : after.Stages target place := by
  obtain ⟨temporary, htemporary, hstaging⟩ := h.staged
  exact ⟨h.leads.later hchanges, temporary, htemporary, hstaging.later hchanges⟩

theorem stages_join (hplain : disk.IsPlain root) (hpath : path.IsProper) :
    disk.Stages (root.join path) (disk.site root ++ path.parts) :=
  ⟨leads_join hplain hpath, exists_leads_staging hplain hpath⟩

end Leads

end Disk

namespace Delivery

open Disk

variable {α β : Type}

/-- An attempt on a disk: what comes of it, and the disk afterwards. -/
def played (attempt : Attempt α) (disk : Disk) : Except DeliveryError α × Disk :=
  attempt.run.run disk

@[simp] theorem played_pure (value : α) (disk : Disk) :
    played (pure value) disk = (.ok value, disk) := rfl

theorem played_bind (first : Attempt α) (next : α → Attempt β) (disk : Disk) :
    played (first >>= next) disk =
      match played first disk with
      | (.ok value, later) => played (next value) later
      | (.error failure, later) => (.error failure, later) := by
  unfold played
  rw [ExceptT.run_bind]
  refine (Session.run_bind _ _ disk).trans ?_
  rcases first.run.run disk with ⟨failure | value, later⟩ <;> rfl

@[simp] theorem played_session (session : Session α) (disk : Disk) :
    played (liftM session : Attempt α) disk =
      (.ok (session.run disk).1, (session.run disk).2) :=
  Session.run_bind session _ disk

@[simp] theorem played_orBlame (path : Path) (reply : Session (Except FileFault α)) (disk : Disk) :
    played (orBlame path reply) disk =
      ((reply.run disk).1.mapError (DeliveryError.mk path), (reply.run disk).2) :=
  Session.run_bind reply _ disk

theorem changes_bind {fresh touched : Location → Prop} {first : Attempt α}
    {next : α → Attempt β} {disk : Disk} (hfirst : Changes fresh touched disk (played first disk).2)
    (hnext : ∀ value later, Changes fresh touched disk later →
      Changes fresh touched later (played (next value) later).2) :
    Changes fresh touched disk (played (first >>= next) disk).2 := by
  rw [played_bind]
  rcases hplayed : played first disk with ⟨failure | value, later⟩
  · simpa [hplayed] using hfirst
  · rw [hplayed] at hfirst
    exact hfirst.trans (hnext value later hfirst)

theorem changes_pure {fresh touched : Location → Prop} (value : α) (disk : Disk) :
    Changes fresh touched disk (played (pure value) disk).2 := Changes.refl disk

theorem changes_throw {fresh touched : Location → Prop} (failure : DeliveryError) (disk : Disk) :
    Changes fresh touched disk (played (throw failure : Attempt α) disk).2 := Changes.refl disk

theorem played_bind_ok {first : Attempt α} {next : α → Attempt β} {disk : Disk} {result : β}
    (h : (played (first >>= next) disk).1 = .ok result) :
    ∃ value, (played first disk).1 = .ok value ∧
      (played (next value) (played first disk).2).1 = .ok result ∧
      (played (first >>= next) disk).2 = (played (next value) (played first disk).2).2 := by
  rw [played_bind] at h ⊢
  rcases hplayed : played first disk with ⟨failure | value, later⟩
  · simp [hplayed] at h
  · simp only [hplayed] at h
    exact ⟨value, rfl, h, rfl⟩

/-- What a session does to a disk it does step by step. -/
theorem run_then (session : Session α) (next : α → Session β) (disk : Disk) :
    (session >>= next).run disk =
      (next (session.run disk).1).run (session.run disk).2 :=
  Session.run_bind session next disk

@[simp] theorem run_pure (value : α) (disk : Disk) :
    (pure value : Session α).run disk = (value, disk) := rfl

@[simp] theorem run_send (request : Request) (disk : Disk) :
    (Session.send request).run disk = disk.answer request := rfl

theorem played_send (request : Request) (next : request.Reply → Attempt β) (disk : Disk) :
    played (Session.send request >>= next) disk =
      played (next (disk.answer request).1) (disk.answer request).2 := by
  rw [played_bind, played_session, run_send]

theorem run_probe (path : Path) (next : Except FileFault Bool → Session α) (disk : Disk) :
    (Session.send (.probe path) >>= next).run disk =
      (next (disk.answer (.probe path)).1).run disk := by
  rw [run_then, run_send, answer_probe]

theorem run_exists? (path : Path) (disk : Disk) :
    ((Session.exists? path).run disk).2 = disk := by
  unfold Session.exists?
  rw [run_probe]
  split <;> rfl

theorem run_isDirectory (path : Path) (disk : Disk) :
    ((Session.isDirectory path).run disk).2 = disk := by
  unfold Session.isDirectory
  rw [run_probe]
  split <;> rfl

theorem run_settle (path : Path) (result : Except FileFault Unit) (disk : Disk) :
    ((Session.makeDirectories.settle path result).run disk).2 = disk := by
  cases result with
  | ok _ => rfl
  | error fault =>
    unfold Session.makeDirectories.settle
    rw [run_then, run_isDirectory]
    split <;> rfl

/-- Making directories does no more than the requests for single ones do. -/
theorem run_makeDirectories (relation : Disk → Disk → Prop) (refl : ∀ disk, relation disk disk)
    (trans : ∀ {first second third}, relation first second → relation second third →
      relation first third) {paths : List Path}
    (hmake : ∀ path ∈ paths, ∀ disk, relation disk (disk.answer (.makeDirectory path)).2)
    (disk : Disk) : relation disk ((Session.makeDirectories paths).run disk).2 := by
  induction paths generalizing disk with
  | nil => exact refl disk
  | cons path above ih =>
    obtain ⟨hpath, habove⟩ := List.forall_mem_cons.1 hmake
    unfold Session.makeDirectories
    split
    · exact refl disk
    · rw [run_then, run_send]
      refine trans (hpath disk) ?_
      generalize (disk.answer (.makeDirectory path)).2 = later
      split
      · exact refl later
      · rw [run_then]
        refine trans (ih habove later) ?_
        split
        · rw [run_pure]
          exact refl _
        · rw [run_then, run_send, run_settle]
          exact hpath _
      · rw [run_settle]
        exact refl later

theorem changes_makeDirectories (paths : List Path) (disk : Disk) :
    Changes (fun _ => False) (fun _ => False) disk ((Session.makeDirectories paths).run disk).2 :=
  run_makeDirectories _ Changes.refl Changes.trans (fun path _ disk => changes_makeDirectory disk path) disk

theorem changes_makeParent (target : Path) (disk : Disk) :
    Changes (fun _ => False) (fun _ => False) disk (played (makeParent target) disk).2 := by
  unfold makeParent
  split
  · rw [played_orBlame]
    exact changes_makeDirectories _ disk
  · exact changes_pure _ disk

/-- A single request as a part of an attempt. -/
theorem changes_sent {fresh touched : Location → Prop} {request : Request} {disk : Disk}
    (h : Changes fresh touched disk (disk.answer request).2) :
    Changes fresh touched disk (played (liftM (Session.send request)) disk).2 := by
  rw [played_session, run_send]
  exact h

theorem changes_request {fresh touched : Location → Prop} {request : Request} {disk : Disk}
    (path : Path) (h : Changes fresh touched disk (disk.answer request).2) :
    Changes fresh touched disk (played (orBlame path (Session.send request)) disk).2 := by
  rw [played_orBlame, run_send]
  exact h

theorem reply_of_request {request : Request} {path : Path} {disk : Disk} {value : request.Answer}
    (h : (played (orBlame path (Session.send request)) disk).1 = .ok value) :
    (disk.answer request).1 = .ok value ∧
      (played (orBlame path (Session.send request)) disk).2 = (disk.answer request).2 := by
  rw [played_orBlame, run_send] at h ⊢
  exact ⟨mapError_eq_ok.1 h, rfl⟩

theorem changes_exists? {fresh touched : Location → Prop} (path : Path) (disk : Disk) :
    Changes fresh touched disk (played (liftM (Session.exists? path)) disk).2 := by
  rw [played_session, run_exists?]
  exact Changes.refl disk

section Files

variable {disk : Disk} {target : Path} {place temporary : Location} {contents : String}

theorem changes_writeNew (htarget : disk.Leads target place)
    (hstaging : disk.Leads (staging target) temporary) :
    Changes (· = place) (· = temporary) disk (played (writeNew target contents) disk).2 := by
  unfold writeNew
  refine changes_bind (changes_exists? target disk) fun there later hprobe => ?_
  split
  · exact changes_pure _ later
  have htarget := htarget.later hprobe
  have hstaging := hstaging.later hprobe
  have hwrite := changes_request (staging target) (changes_write hstaging contents)
  refine changes_bind (hwrite.mono (fun _ => False.elim) fun _ => id) fun _ later hwrite => ?_
  have htarget := htarget.later hwrite
  have hstaging := hstaging.later hwrite
  have hlink := changes_sent (changes_link hstaging htarget)
  refine changes_bind (hlink.mono (fun _ => id) fun _ => False.elim) fun linked later hlink => ?_
  have hremove := changes_sent (changes_remove (hstaging.later hlink))
  refine changes_bind (hremove.mono (fun _ => False.elim) fun _ => id) fun _ later _ => ?_
  split
  · exact changes_pure _ later
  · exact changes_pure _ later
  · exact changes_throw _ later

theorem changes_replace (htarget : disk.Leads target place)
    (hstaging : disk.Leads (staging target) temporary) :
    Changes (fun _ => False) (fun l => l = temporary ∨ l = place) disk
      (played (replace target contents) disk).2 := by
  unfold replace
  have hwrite := changes_request (staging target) (changes_write hstaging contents)
  refine changes_bind (hwrite.mono (fun _ => id) fun _ => Or.inl) fun _ later hwrite => ?_
  have hrename := changes_rename (hstaging.later hwrite) (htarget.later hwrite)
  refine changes_bind (changes_request target hrename) fun _ later _ => ?_
  exact changes_pure _ later

/-- A file that has taken its place can be read there. -/
theorem read_of_replace (htarget : disk.Leads target place)
    (hstaging : disk.Leads (staging target) temporary) {outcome : Outcome}
    (h : (played (replace target contents) disk).1 = .ok outcome) :
    (played (replace target contents) disk).2.read target = .ok contents := by
  unfold replace at h ⊢
  obtain ⟨_, hwrite, hrest, hdisk⟩ := played_bind_ok h
  obtain ⟨_, hrename, hdone, hlast⟩ := played_bind_ok hrest
  rw [hdisk, hlast, played_pure]
  obtain ⟨hwritten, hlater⟩ := reply_of_request hwrite
  rw [hlater] at hrename ⊢
  obtain ⟨hrenamed, hfinal⟩ := reply_of_request hrename
  rw [hfinal]
  have hchanges := changes_write hstaging contents
  exact read_of_rename (hstaging.later hchanges) (htarget.later hchanges)
    (get?_of_write hstaging hwritten) hrenamed

end Files

end Delivery

theorem isTemporary_append (site : Location) {parts : Location} (h : parts ≠ []) :
    IsTemporary (site ++ parts) ↔ IsTemporary parts := by
  obtain ⟨names, last, rfl⟩ : ∃ names last, parts = names ++ [last] :=
    ⟨_, _, (List.dropLast_append_getLast h).symm⟩
  constructor
  · rintro ⟨above, name, hlocation⟩
    rw [← List.append_assoc] at hlocation
    obtain ⟨-, hlast⟩ := List.append_inj' hlocation rfl
    exact ⟨names, name, by rw [hlast]⟩
  · rintro ⟨above, name, hlocation⟩
    exact ⟨site ++ above, name, by rw [hlocation, List.append_assoc]⟩

theorem not_isTemporary {names : List String} {last : String} {c : Char}
    (hlast : last.toList.getLast? = some c) (hc : c ≠ 'p') : ¬IsTemporary (names ++ [last]) := by
  rintro ⟨above, name, hlocation⟩
  obtain ⟨-, hname⟩ := List.append_inj' hlocation rfl
  obtain rfl := List.singleton_inj.1 hname
  rw [String.toList_append, List.getLast?_append] at hlast
  exact hc (Option.some.inj hlast).symm

namespace Destination

open Delivery Disk

/-- The places at which a delivery may put a file where nothing was. -/
def Fresh (site : Location) (artifacts : List Artifact) (location : Location) : Prop :=
  ∃ artifact ∈ artifacts, location = site ++ artifact.path.parts

/-- The places at which a delivery may change what is there. -/
def Touched (site : Location) (artifacts : List Artifact) (location : Location) : Prop :=
  IsTemporary location ∨
    ∃ artifact ∈ artifacts, artifact.policy = .overwrite ∧ location = site ++ artifact.path.parts

/-- What may lie between two states of a disk when files have been delivered, each of which goes to a given
place. -/
def Lands (place : Artifact → Location) (artifacts : List Artifact) (before after : Disk) : Prop :=
  Changes (fun location => ∃ artifact ∈ artifacts, location = place artifact)
    (fun location => IsTemporary location ∨
      ∃ artifact ∈ artifacts, artifact.policy = .overwrite ∧ location = place artifact) before after

theorem Lands.more {place : Artifact → Location} {artifacts more : List Artifact} {before after : Disk}
    (h : Lands place artifacts before after) (hmore : ∀ artifact ∈ artifacts, artifact ∈ more) :
    Lands place more before after := by
  refine h.mono ?_ ?_
  · rintro location ⟨artifact, hmem, rfl⟩
    exact ⟨artifact, hmore artifact hmem, rfl⟩
  · rintro location (htemporary | ⟨artifact, hmem, hpolicy, rfl⟩)
    · exact Or.inl htemporary
    · exact Or.inr ⟨artifact, hmore artifact hmem, hpolicy, rfl⟩

variable {destination : Destination} {disk : Disk} {artifact : Artifact} {artifacts : List Artifact}
  {place : Artifact → Location}

theorem lands_write (h : disk.Stages (destination.root.join artifact.path) (place artifact)) :
    Lands place [artifact] disk (played (destination.write artifact) disk).2 := by
  unfold Destination.write
  dsimp only
  split
  · exact changes_pure _ disk
  have hparent := changes_makeParent (destination.root.join artifact.path) disk
  refine changes_bind (hparent.mono (fun _ => False.elim) fun _ => False.elim)
    fun _ later hparent => ?_
  obtain ⟨htarget, temporary, htemporary, hstaging⟩ := h.later hparent
  split
  · refine (changes_writeNew htarget hstaging).mono ?_ ?_
    · rintro location rfl
      exact ⟨artifact, List.mem_singleton_self _, rfl⟩
    · rintro location rfl
      exact Or.inl htemporary
  · next hpolicy =>
    refine (changes_replace htarget hstaging).mono (fun _ => False.elim) ?_
    rintro location (rfl | rfl)
    · exact Or.inl htemporary
    · exact Or.inr ⟨artifact, List.mem_singleton_self _, hpolicy, rfl⟩

theorem read_of_write {location : Location} (h : disk.Stages (destination.root.join artifact.path) location)
    (hpolicy : artifact.policy = .overwrite) (hreal : destination.dryRun = false) {outcome : Outcome}
    (hdone : (played (destination.write artifact) disk).1 = .ok outcome) :
    (played (destination.write artifact) disk).2.read (destination.root.join artifact.path) =
      .ok artifact.contents := by
  unfold Destination.write at hdone ⊢
  simp only [hreal, hpolicy, Bool.false_eq_true, if_false] at hdone ⊢
  obtain ⟨_, -, hreplace, hdisk⟩ := played_bind_ok hdone
  rw [hdisk]
  obtain ⟨htarget, temporary, -, hstaging⟩ :=
    h.later (changes_makeParent (destination.root.join artifact.path) disk)
  exact read_of_replace htarget hstaging hreplace

/-- A delivery goes on after a file that did not fail, and ends with one that did. -/
theorem run_writeEach (artifact : Artifact) (artifacts : List Artifact) (disk : Disk) :
    (destination.writeEach (artifact :: artifacts)).run disk =
      match played (destination.write artifact) disk with
      | (.error failure, later) => (⟨[], some failure⟩, later)
      | (.ok outcome, later) =>
        let (rest, last) := (destination.writeEach artifacts).run later
        ({ rest with delivered := (artifact, outcome) :: rest.delivered }, last) := by
  rw [writeEach, run_then]
  change _ = match (destination.write artifact).run.run disk with
    | (.error failure, later) => _
    | (.ok outcome, later) => _
  rcases (destination.write artifact).run.run disk with ⟨failure | outcome, later⟩
  · rfl
  · exact run_then _ _ later

/-- A delivery that is only tried out plans every file and leaves the disk as it is. -/
theorem writeEach_dryRun (h : destination.dryRun = true) (artifacts : List Artifact) (disk : Disk) :
    (destination.writeEach artifacts).run disk =
      (⟨artifacts.map fun artifact => (artifact, .planned), none⟩, disk) := by
  induction artifacts with
  | nil => rfl
  | cons artifact artifacts ih =>
    have hwrite : played (destination.write artifact) disk = (.ok .planned, disk) := by
      unfold Destination.write
      rw [h]
      rfl
    rw [run_writeEach, hwrite, List.map_cons]
    dsimp only
    rw [ih]

theorem lands_writeEach
    (h : ∀ a ∈ artifacts, disk.Stages (destination.root.join a.path) (place a)) :
    Lands place artifacts disk ((destination.writeEach artifacts).run disk).2 := by
  induction artifacts generalizing disk with
  | nil => exact Changes.refl disk
  | cons artifact artifacts ih =>
    obtain ⟨hartifact, hartifacts⟩ := List.forall_mem_cons.1 h
    have hmore : ∀ a ∈ [artifact], a ∈ artifact :: artifacts := by simp
    have hfirst := (lands_write hartifact).more hmore
    rw [run_writeEach]
    rcases hplayed : played (destination.write artifact) disk with ⟨failure | outcome, later⟩ <;>
      rw [hplayed] at hfirst
    · exact hfirst
    · have hrest := ih fun a ha => (hartifacts a ha).later hfirst
      exact hfirst.trans (hrest.more fun a ha => List.mem_cons_of_mem _ ha)

/-- In a delivery that did not fail, a file that is to be overwritten can be read where it was put, unless
another one was put there after it. -/
theorem read_of_stages {before after : List Artifact}
    (h : ∀ a ∈ before ++ artifact :: after, disk.Stages (destination.root.join a.path) (place a))
    (hpolicy : artifact.policy = .overwrite) (hlasting : ¬IsTemporary (place artifact))
    (hlast : ∀ a ∈ after, a.policy = .overwrite → place a ≠ place artifact)
    (hreal : destination.dryRun = false)
    (hdone : ((destination.writeEach (before ++ artifact :: after)).run disk).1.failure? = none) :
    ((destination.writeEach (before ++ artifact :: after)).run disk).2.read
      (destination.root.join artifact.path) = .ok artifact.contents := by
  induction before generalizing disk with
  | nil =>
    rw [List.nil_append] at h hdone ⊢
    obtain ⟨hartifact, hartifacts⟩ := List.forall_mem_cons.1 h
    have hfirst := lands_write hartifact
    have hread (outcome : Outcome)
        (h : (played (destination.write artifact) disk).1 = .ok outcome) :=
      read_of_write hartifact hpolicy hreal h
    rw [run_writeEach] at hdone ⊢
    rcases hplayed : played (destination.write artifact) disk with ⟨failure | outcome, later⟩ <;>
      rw [hplayed] at hdone hread hfirst
    · cases hdone
    · have hrest := lands_writeEach fun a ha => (hartifacts a ha).later hfirst
      refine (hartifact.later hfirst).leads.read_again hrest ?_ (hread outcome rfl)
      rintro (hstaged | ⟨other, hmem, hother, hplace⟩)
      · exact hlasting hstaged
      · exact hlast other hmem hother hplace.symm
  | cons first before ih =>
    obtain ⟨hbegin, hrest⟩ := List.forall_mem_cons.1 h
    have hfirst := lands_write hbegin
    rw [List.cons_append, run_writeEach] at hdone ⊢
    rcases hplayed : played (destination.write first) disk with ⟨failure | outcome, later⟩ <;>
      rw [hplayed] at hdone hfirst
    · cases hdone
    · exact ih (fun a ha => (hrest a ha).later hfirst) hdone

/-- The same below a root without links. -/
theorem read_of_writeEach {before after : List Artifact} (hplain : disk.IsPlain destination.root)
    (hpaths : ∀ a ∈ before ++ artifact :: after, a.path.IsProper ∧ ¬IsTemporary a.path.parts)
    (hpolicy : artifact.policy = .overwrite)
    (hlast : ∀ a ∈ after, a.policy = .overwrite → a.path.parts ≠ artifact.path.parts)
    (hreal : destination.dryRun = false)
    (hdone : ((destination.writeEach (before ++ artifact :: after)).run disk).1.failure? = none) :
    ((destination.writeEach (before ++ artifact :: after)).run disk).2.read
      (destination.root.join artifact.path) = .ok artifact.contents := by
  obtain ⟨-, htemporary⟩ := hpaths artifact (by simp)
  refine read_of_stages (fun a ha => stages_join hplain (hpaths a ha).1) hpolicy ?_ ?_ hreal hdone
  · exact fun hstaged => htemporary ((isTemporary_append _ artifact.path.parts_ne_nil).1 hstaged)
  · exact fun a ha hoverwrite hplace => hlast a ha hoverwrite (List.append_cancel_left hplace)

theorem mem_order {a : Artifact} : a ∈ order artifacts ↔ a ∈ artifacts := by
  cases hpolicy : a.policy <;> simp [order, hpolicy]

theorem changes_writeAll (hplain : disk.IsPlain destination.root)
    (hpaths : ∀ artifact ∈ artifacts, artifact.path.IsProper) :
    Changes (Fresh (disk.site destination.root) artifacts)
      (Touched (disk.site destination.root) artifacts) disk
      ((destination.writeAll artifacts).run disk).2 :=
  (lands_writeEach fun a ha => stages_join hplain (hpaths a (mem_order.1 ha))).more fun _ => mem_order.1

theorem mem_of_find? {path : Path} (h : Artifact.find? artifacts path = some artifact) :
    artifact ∈ artifacts ∧ artifact.path.isSame path = true := by
  have hsame := List.find?_some h
  exact ⟨List.mem_of_find?_eq_some h, hsame⟩

/-- In the order of delivery, a file that is to be overwritten comes before those of its kind that come after it in
the list. -/
theorem order_append_cons (hpolicy : artifact.policy = .overwrite) (before after : List Artifact) :
    order (before ++ artifact :: after) = ((before ++ after).filter (fun a => a.policy = .skipIfExists) ++
      before.filter (fun a => a.policy = .overwrite)) ++
        artifact :: after.filter (fun a => a.policy = .overwrite) := by
  simp [order, hpolicy]

/-- The last of some files at one path is the last one there in the order of delivery too, as long as it
is to be overwritten. -/
theorem order_of_last {path : Path} (hfound : Artifact.find? artifacts.reverse path = some artifact)
    (hpolicy : artifact.policy = .overwrite) :
    ∃ before after, order artifacts = before ++ artifact :: after ∧
      ∀ a ∈ after, a.path.isSame path = false := by
  obtain ⟨-, after, before, hreverse, hafter⟩ := List.find?_eq_some_iff_append.1 hfound
  have hsplit : artifacts = before.reverse ++ artifact :: after.reverse := by
    rw [← List.reverse_inj, hreverse]
    simp
  rw [hsplit, order_append_cons hpolicy]
  refine ⟨_, _, rfl, ?_⟩
  intro a ha
  have hmem : a ∈ after := List.mem_reverse.1 (List.mem_filter.1 ha).1
  simpa using hafter a hmem

end Destination

end EntityForge
