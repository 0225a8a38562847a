import EntityForge.Program
import EntityForge.Proofs.Interruption
import EntityForge.Proofs.Mirror
import EntityForge.Proofs.Relocation

/-!
What a whole run of the program does to a disk.

Nothing is written before everything is known that is to be written, so a run that fails before that leaves the
disk as it is. A run ends with the code 0 exactly if none of its stages fails; and then each file that is to be
overwritten is where its path under the output directory leads. Where that is depends on the options: a path
that steps up leads out of that directory. Main statement: `run_completes`.
-/

namespace EntityForge

namespace Path

variable {path : Path}

theorem way_of_parts {above : List String} {name : String} (hparts : path.parts = above ++ [name])
    (hname : IsName name) : isIdle name = false ∧ path.way = above.filter (fun part => !isIdle part) ++ [name] := by
  have hidle : isIdle name = false := by simp [isIdle, hname.ne_empty, hname.ne_here]
  refine ⟨hidle, ?_⟩
  rw [way, hparts, List.filter_append, List.filter_singleton, hidle]
  rfl

/-- A path that ends in a name, which no temporary file has. -/
def NamesFile (path : Path) : Prop :=
  ∃ above name, path.parts = above ++ [name] ∧ IsName name ∧ ∀ other, name ≠ "." ++ other ++ ".tmp"

theorem NamesFile.of_getLast? {above : List String} {name : String} {c : Char}
    (hparts : path.parts = above ++ [name]) (hlast : name.toList.getLast? = some c) (hdot : c ≠ '.')
    (hend : c ≠ 'p') : path.NamesFile := by
  refine ⟨above, name, hparts, isName_of_getLast? hlast hdot, ?_⟩
  rintro other rfl
  have hnone : ¬IsTemporary ([] ++ ["." ++ other ++ ".tmp"]) := not_isTemporary hlast hend
  exact hnone ⟨[], other, rfl⟩

theorem NamesFile.join (h : path.NamesFile) (base : Path) : (base.join path).NamesFile := by
  by_cases habsolute : path.isAbsolute = true
  · unfold Path.join
    rwa [if_pos habsolute]
  · obtain ⟨above, name, hparts, hname, hlasting⟩ := h
    refine ⟨base.stem ++ above, name, ?_, hname, hlasting⟩
    rw [parts_join (by simpa using habsolute), hparts, List.append_assoc]

end Path

theorem Surface.namesFile_file {directory : String} {surface : Surface} {tail : List String × String}
    (htail : surface.tail? = some tail) : (file directory tail).NamesFile := by
  obtain ⟨above, last, hparts⟩ : ∃ above last, (Path.mk directory).parts = above ++ [last] :=
    ⟨_, _, (List.dropLast_append_getLast (Path.parts_ne_nil _)).symm⟩
  have hwhole : (file directory tail).parts = (above ++ [last] ++ tail.1 ++ above) ++ [last ++ tail.2] := by
    rw [parts_file htail hparts, List.append_assoc _ above]
  exact .of_getLast? hwhole (getLast?_ending htail last) (by decide) (by decide)

theorem Aggregate.namesFile {name : String} (h : name ∈ names) : (Path.mk name).NamesFile := by
  obtain ⟨hslash, c, hlast, hdot, hend⟩ := last_of_mem_names h
  have hparts : (Path.mk name).parts = [] ++ [name] := Path.parts_of_not_mem hslash
  exact .of_getLast? hparts hlast hdot hend

/-- Whatever the layout and the names of the entities are, the path of a generated file ends in a name. -/
theorem namesFile_of_generate {schema : Schema} {policy : OwnerPolicy} {layout : Layout} {artifacts : List Artifact}
    (h : schema.generate policy layout = .ok artifacts) {a : Artifact} (ha : a ∈ artifacts) : a.path.NamesFile := by
  rcases mem_placements.1 ((exists_artifact_iff h).1 ⟨a, ha, rfl, rfl⟩) with
    ⟨directory, -, surface, tail, htail, ⟨hpath, -⟩ | ⟨hpath, -⟩⟩ | ⟨name, hname, hpath, -⟩
  · rw [hpath]
    exact (Surface.namesFile_file htail).join _
  · rw [hpath]
    exact (Surface.namesFile_file htail).join _
  · rw [hpath]
    exact (Aggregate.namesFile hname).join _

namespace Disk

variable {disk : Disk} {target : Path}

/-- There is no link at the end of a path. -/
def Unlinked (disk : Disk) (path : Path) : Prop :=
  ∀ location, disk.EndsAt path location → disk.tree.link? location = none

/-- A path that ends in a name leads to its place, whatever links there are before that name. -/
theorem Unlinked.leads {path : Path} (h : disk.Unlinked path) {above : List String} {name : String}
    (hparts : path.parts = above ++ [name]) (hname : IsName name) :
    ∃ directory, disk.site path = directory ++ [name] ∧ disk.Leads path (directory ++ [name]) := by
  obtain ⟨hidle, hway⟩ := Path.way_of_parts hparts hname
  obtain ⟨before, hsteps, hbefore⟩ := (Path.endsInWay_of_parts above hparts (Or.inl hidle)).steps_eq hway
  have hends := h _ ⟨_, name, hway, hname.ne_up, rfl⟩
  refine ⟨_, (EndsAt.site_eq ⟨_, name, hway, hname.ne_up, rfl⟩ hends).symm, ?_, ?_, hends⟩
  · exact ⟨before, name, hname, hsteps, by rw [← hbefore, FileTree.landing_filter]⟩
  · by_contra hslash
    obtain ⟨text, -, hwhole⟩ := Path.parts_of_endsInSlash (by simpa using hslash)
    rw [hparts] at hwhole
    exact hname.ne_empty (List.append_singleton_inj.1 hwhole).2

/-- A file and the temporary file beside it, where no link stands in the place of either. -/
theorem stages_of_unlinked (hfile : target.NamesFile) (htarget : disk.Unlinked target)
    (hstaging : disk.Unlinked (Delivery.staging target)) :
    disk.Stages target (disk.site target) ∧ ¬IsTemporary (disk.site target) := by
  obtain ⟨above, name, hparts, hname, hlasting⟩ := hfile
  obtain ⟨directory, hsite, hleads⟩ := htarget.leads hparts hname
  rw [hsite]
  refine ⟨⟨hleads, ?_⟩, ?_⟩
  · obtain ⟨-, hway⟩ := Path.way_of_parts hparts hname
    obtain ⟨parent, hbeside, -⟩ := staging_eq hway hname.ne_up
    have hslash : '/' ∉ name.toList := Path.not_mem_of_mem_parts (show name ∈ target.parts by simp [hparts])
    obtain ⟨hproper, htemporary⟩ := isProper_temporary hslash
    have hwhole : (Delivery.staging target).parts = parent.stem ++ ["." ++ name ++ ".tmp"] := by
      rw [hbeside, Path.parts_join hproper.isAbsolute_eq, htemporary]
    obtain ⟨within, -, hstaged⟩ := hstaging.leads hwhole (isName_temporary name)
    exact ⟨_, ⟨within, name, rfl⟩, hstaged⟩
  · rintro ⟨within, other, hother⟩
    exact hlasting other (List.append_singleton_inj.1 hother).2

theorem answer_read (disk : Disk) (path : Path) : (disk.answer (.read path)).2 = disk := by
  unfold answer
  split <;> rfl

/-- A file is there after a run: where its path under a root leads, by the links that there were before. -/
structure Holds (before later : Disk) (root : Path) (a : Artifact) : Prop where
  read : later.read (root.join a.path) = .ok a.contents
  entry : later.tree.get? (before.site (root.join a.path)) = some (.file a.contents)
  /-- That is below the root, where there are no links below the root and the path does not step up. -/
  below : before.IsPlain root → a.path.Descends →
    later.tree.get? (before.site root ++ a.path.way) = some (.file a.contents)

theorem holds_of_read {before later : Disk} {root : Path} {a : Artifact}
    (hleads : later.Leads (root.join a.path) (before.site (root.join a.path)))
    (hread : later.read (root.join a.path) = .ok a.contents) : before.Holds later root a := by
  have hentry := (hleads.entry_of_read hread).2
  refine ⟨hread, hentry, ?_⟩
  intro hplain hdescends
  rwa [← site_join_of_plain hplain hdescends]

end Disk

namespace Program

open Disk Delivery

variable {arguments : List String} {c : CommandLine} {disk : Disk} {artifacts : List Artifact}

/-- What a run is to write: the document can be read, makes sense as a schema, and these files are generated
from it. -/
def Plans (c : CommandLine) (disk : Disk) (artifacts : List Artifact) : Prop :=
  ∃ text schema, (disk.answer (.read c.document)).1 = .ok text ∧ Schema.ofText text = .ok schema ∧
    schema.generate c.policy c.layout = .ok artifacts

theorem plan_eq_ok {text : String} : (plan c text).2 = .ok artifacts ↔
    ∃ schema, Schema.ofText text = .ok schema ∧ schema.generate c.policy c.layout = .ok artifacts := by
  unfold plan Schema.ofText
  cases Document.parse text with
  | error fault => simp [bind_eq_ok, mapError_eq_ok]
  | ok document => cases hload : Schema.load document <;> simp [hload, bind_eq_ok, mapError_eq_ok]

theorem plans_iff : Plans c disk artifacts ↔
    ∃ text, (disk.answer (.read c.document)).1 = .ok text ∧ (plan c text).2 = .ok artifacts := by
  simp only [Plans, plan_eq_ok, exists_and_left]

theorem Plans.unique {others : List Artifact} (h : Plans c disk artifacts) (hothers : Plans c disk others) :
    artifacts = others := by
  obtain ⟨text, hread, hplan⟩ := plans_iff.1 h
  obtain ⟨other, hreadOther, hplanOther⟩ := plans_iff.1 hothers
  obtain rfl := Except.ok.inj (hread.symm.trans hreadOther)
  exact Except.ok.inj (hplan.symm.trans hplanOther)

theorem perform_of_plans (h : Plans c disk artifacts) :
    let report := ((destination c).writeAll artifacts).run disk
    ((perform c).run disk).1.2 = report.1.failure?.map (.delivery c.outDir) ∧
      ((perform c).run disk).2 = report.2 := by
  obtain ⟨text, hread, hplan⟩ := plans_iff.1 h
  unfold perform
  rw [run_then, run_send, hread, answer_read]
  dsimp only
  rcases hwhole : plan c text with ⟨told, _ | planned⟩ <;> rw [hwhole] at hplan
  · cases hplan
  · obtain rfl := Except.ok.inj hplan
    dsimp only
    rw [run_then]
    exact ⟨rfl, rfl⟩

theorem perform_of_not_plans (h : ¬∃ artifacts, Plans c disk artifacts) :
    (∃ failure, ((perform c).run disk).1.2 = some failure) ∧ ((perform c).run disk).2 = disk := by
  unfold perform
  rw [run_then, run_send, answer_read]
  cases hread : (disk.answer (.read c.document)).1 with
  | error fault => exact ⟨⟨_, rfl⟩, rfl⟩
  | ok text =>
    dsimp only
    rcases hplan : plan c text with ⟨told, failure | artifacts⟩
    · exact ⟨⟨failure, rfl⟩, rfl⟩
    · exact absurd ⟨artifacts, plans_iff.2 ⟨text, hread, by rw [hplan]⟩⟩ h

theorem code_ofRun (filter : Log.Filter) (told : List Log.Event) (failure? : Option RunFailure) :
    (Finish.ofRun filter told failure?).code = 0 ↔ failure? = none := by
  cases failure? with
  | none => exact iff_of_true rfl rfl
  | some failure => exact iff_of_false (show (1 : UInt32) ≠ 0 by decide) (Option.some_ne_none failure)

theorem run_of_parse (hparse : CommandLine.parse arguments = .ok c) (setting : Option String) (disk : Disk) :
    (((run setting arguments).run disk).1.code = 0 ↔ ((perform c).run disk).1.2 = none) ∧
      ((run setting arguments).run disk).2 = ((perform c).run disk).2 := by
  unfold run
  rw [hparse]
  dsimp only
  rw [run_then]
  exact ⟨code_ofRun _ _ _, rfl⟩

/-- What a delivery that did not fail has put in the place of other files is there afterwards, where no link stands
in the place of a file or in that of its temporary file. -/
theorem holds_of_writeAll (h : Plans c disk artifacts) (hreal : c.dryRun = false)
    (hdone : (((destination c).writeAll artifacts).run disk).1.failure? = none)
    (hlinks : ∀ a ∈ artifacts, disk.Unlinked (c.outDir.join a.path) ∧
      disk.Unlinked (staging (c.outDir.join a.path)))
    {before after : List Artifact} {a : Artifact} (hsplit : artifacts = before ++ a :: after)
    (hpolicy : a.policy = .overwrite)
    (hlast : ∀ b ∈ after, b.policy = .overwrite →
      disk.site (c.outDir.join b.path) ≠ disk.site (c.outDir.join a.path)) :
    disk.Holds (((destination c).writeAll artifacts).run disk).2 c.outDir a := by
  obtain ⟨text, schema, -, -, hgenerate⟩ := h
  have hstages (b : Artifact) (hb : b ∈ artifacts) :
      disk.Stages (c.outDir.join b.path) (disk.site (c.outDir.join b.path)) ∧
        ¬IsTemporary (disk.site (c.outDir.join b.path)) := by
    obtain ⟨htarget, hstaging⟩ := hlinks b hb
    exact stages_of_unlinked ((namesFile_of_generate hgenerate hb).join _) htarget hstaging
  obtain ⟨hleads, hlasting⟩ := hstages a (by simp [hsplit])
  let place (b : Artifact) : Location := disk.site (c.outDir.join b.path)
  have horder := Destination.order_append_cons hpolicy before after
  rw [← hsplit] at horder
  have hordered : ∀ b ∈ Destination.order artifacts, disk.Stages (c.outDir.join b.path) (place b) :=
    fun b hb => (hstages b (Destination.mem_order.1 hb)).1
  have hlands : Destination.Lands place _ disk (((destination c).writeAll artifacts).run disk).2 :=
    Destination.lands_writeEach hordered
  refine holds_of_read (hleads.later hlands).leads ?_
  unfold Destination.writeAll at hdone ⊢
  rw [horder] at hordered hdone ⊢
  refine Destination.read_of_stages hordered hpolicy hlasting ?_ hreal hdone
  intro b hb hoverwrite
  exact hlast b (List.mem_filter.1 hb).1 hoverwrite

/-- The code is 0 exactly if there is something to write and it can be written. -/
theorem code_iff (hparse : CommandLine.parse arguments = .ok c) (setting : Option String) (disk : Disk) :
    ((run setting arguments).run disk).1.code = 0 ↔ ∃ artifacts, Plans c disk artifacts ∧
      (((destination c).writeAll artifacts).run disk).1.failure? = none := by
  obtain ⟨hcode, -⟩ := run_of_parse hparse setting disk
  rw [hcode]
  by_cases hplans : ∃ artifacts, Plans c disk artifacts
  · obtain ⟨artifacts, hplan⟩ := hplans
    rw [(perform_of_plans hplan).1, Option.map_eq_none_iff]
    constructor
    · exact fun hdone => ⟨artifacts, hplan, hdone⟩
    · rintro ⟨others, hothers, hdone⟩
      rwa [hplan.unique hothers]
  · obtain ⟨⟨failure, hfailure⟩, -⟩ := perform_of_not_plans hplans
    rw [hfailure]
    exact iff_of_false (Option.some_ne_none failure) fun ⟨artifacts, hplan, _⟩ => hplans ⟨artifacts, hplan⟩

theorem disk_of_plans (hparse : CommandLine.parse arguments = .ok c) (h : Plans c disk artifacts)
    (setting : Option String) :
    ((run setting arguments).run disk).2 = (((destination c).writeAll artifacts).run disk).2 :=
  (run_of_parse hparse setting disk).2.trans (perform_of_plans h).2

theorem disk_unchanged (hparse : CommandLine.parse arguments = .ok c) (setting : Option String)
    (hnothing : c.dryRun = true ∨ ¬∃ artifacts, Plans c disk artifacts) :
    ((run setting arguments).run disk).2 = disk := by
  by_cases hplans : ∃ artifacts, Plans c disk artifacts
  · obtain ⟨artifacts, hplan⟩ := hplans
    have hdry : (destination c).dryRun = true := hnothing.resolve_right fun hnone => hnone ⟨artifacts, hplan⟩
    rw [disk_of_plans hparse hplan, Destination.writeAll, Destination.writeEach_dryRun hdry]
  · exact (run_of_parse hparse setting disk).2.trans (perform_of_not_plans hplans).2

end Program

/-- A run with arguments that make sense leaves the disk as it is if it is only tried out, or if the document
cannot be read, makes no sense or cannot be generated from. It ends with the code 0 exactly if neither this is
so nor the delivery fails; and then every file that is to be overwritten is where its path leads, unless one that
comes after it has gone there too. -/
theorem run_completes {arguments : List String} {c : CommandLine} (hparse : CommandLine.parse arguments = .ok c)
    (setting : Option String) (disk : Disk) :
    let finish := ((Program.run setting arguments).run disk).1
    let later := ((Program.run setting arguments).run disk).2
    ((c.dryRun = true ∨ ¬∃ artifacts, Program.Plans c disk artifacts) → later = disk) ∧
      (finish.code = 0 ↔ ∃ artifacts, Program.Plans c disk artifacts ∧
        (((Program.destination c).writeAll artifacts).run disk).1.failure? = none) ∧
      (finish.code = 0 → c.dryRun = false → ∃ artifacts, Program.Plans c disk artifacts ∧
        ((∀ a ∈ artifacts, disk.Unlinked (c.outDir.join a.path) ∧
            disk.Unlinked (Delivery.staging (c.outDir.join a.path))) →
          ∀ before a after, artifacts = before ++ a :: after → a.policy = .overwrite →
            (∀ b ∈ after, b.policy = .overwrite →
              disk.site (c.outDir.join b.path) ≠ disk.site (c.outDir.join a.path)) →
            disk.Holds later c.outDir a)) := by
  intro finish later
  refine ⟨Program.disk_unchanged hparse setting, Program.code_iff hparse setting disk, ?_⟩
  intro hzero hreal
  obtain ⟨artifacts, hplan, hdone⟩ := (Program.code_iff hparse setting disk).1 hzero
  refine ⟨artifacts, hplan, ?_⟩
  intro hlinks before a after hsplit hpolicy hlast
  have hlater : later = _ := Program.disk_of_plans hparse hplan setting
  rw [hlater]
  exact Program.holds_of_writeAll hplan hreal hdone hlinks hsplit hpolicy hlast

/-- The last file of all is the one of patterns. -/
def tags.patterns : Artifact := ⟨⟨"generated/common.regex.ts"⟩, Aggregate.patterns.text, .overwrite⟩

theorem tags_artifacts_eq : tags.artifacts = tags.artifacts.dropLast ++ [tags.patterns] := by
  have hlast : tags.artifacts.getLast? = some tags.patterns := by
    rw [tags.artifacts, List.getLast?_append]
    rfl
  obtain ⟨others, hothers⟩ := List.getLast?_eq_some_iff.1 hlast
  rw [hothers, List.dropLast_concat]

/-- A document beside a directory in which there are notes. -/
def tags.disk : Disk where
  tree := ⟨[(["models.json"], .file tags.text), (["out"], .directory), (["out", "notes.txt"], .file "notes")]⟩
  here := []

theorem tags_read : (tags.disk.answer (.read ⟨"models.json"⟩)).1 = .ok tags.text := by decide +kernel

theorem tags_linkless : tags.disk.tree.Linkless := FileTree.link?_of_entries (by decide +kernel)

def tags.commandLine : CommandLine where
  document := ⟨"models.json"⟩
  outDir := ⟨"out"⟩
  layout := .standard
  policy := .standard
  dryRun := false
  verbose := false

theorem tags_parse : CommandLine.parse ["models.json", "--out-dir", "out"] = .ok tags.commandLine := by
  decide +kernel

theorem tags_plans : Program.Plans tags.commandLine tags.disk tags.artifacts :=
  ⟨tags.text, tags, tags_read, tags_ofText, tags_generate⟩

/-- What is on the disk: the document, and the directory with the notes. -/
theorem tags_get? {location : Location} {entry : Entry} (h : tags.disk.tree.get? location = some entry) :
    location ∈ [[], ["models.json"], ["out"], ["out", "notes.txt"]] := by
  simp only [FileTree.get?, tags.disk, FileTree.find?] at h
  split_ifs at h <;> simp [*]

theorem tags_notes {below : Location} {contents : String}
    (h : tags.disk.tree.get? ("out" :: below) = some (.file contents)) : contents = "notes" := by
  have hout : tags.disk.tree.get? ["out"] = some .directory := by decide +kernel
  have hnotes : tags.disk.tree.get? ["out", "notes.txt"] = some (.file "notes") := by decide +kernel
  have hplaces := tags_get? h
  simp only [List.mem_cons, List.cons.injEq, List.cons_ne_nil, List.not_mem_nil, true_and, or_false,
    false_or] at hplaces
  rcases hplaces with hdocument | rfl | rfl
  · simp at hdocument
  · rw [hout] at h
    cases h
  · rw [hnotes] at h
    cases h
    rfl

theorem tags_vacant {above : Location} (habove : above ∈ [[], ["out"]]) (first : String)
    (hfirst : first ∈ ["resources", "generated"]) (below : Location) :
    tags.disk.tree.get? (above ++ first :: below) = none := by
  rw [← Option.not_isSome_iff_eq_none, Option.isSome_iff_exists]
  rintro ⟨entry, hentry⟩
  have hplaces := tags_get? hentry
  simp only [List.mem_cons, List.not_mem_nil, or_false] at habove hfirst
  rcases habove with rfl | rfl <;> rcases hfirst with rfl | rfl <;> simp at hplaces

/-- What is generated is delivered below a directory in which nothing is in the way. -/
theorem tags_delivers {root : Path} (hplain : '\x00' ∉ root.text.toList) (hshort : root.text.utf8ByteSize ≤ 2048)
    (hroot : tags.disk.entry root = .ok .directory) (hsite : tags.disk.site root ∈ [[], ["out"]]) :
    ((Destination.writeAll ⟨root, false⟩ tags.artifacts).run tags.disk).1.failure? = none :=
  succeeds_of_vacant tags_generate (by decide) (by decide) rfl hplain hshort tags_linkless hroot (tags_vacant hsite)

theorem run_completes_for_tags :
    CommandLine.parse ["models.json", "--out-dir", "out"] = .ok tags.commandLine ∧
      ((Program.run none ["models.json", "--out-dir", "out"]).run tags.disk).1.code = 0 ∧
      tags.disk.Holds ((Program.run none ["models.json", "--out-dir", "out"]).run tags.disk).2 ⟨"out"⟩
        tags.patterns := by
  obtain ⟨-, hcode, hfiles⟩ := run_completes tags_parse none tags.disk
  have hdestination : Program.destination tags.commandLine = ⟨⟨"out"⟩, false⟩ := rfl
  have hdone : (((Program.destination tags.commandLine).writeAll tags.artifacts).run tags.disk).1.failure? = none := by
    rw [hdestination]
    exact tags_delivers (by decide) (by decide) (by decide +kernel) (by decide +kernel)
  have hzero := hcode.2 ⟨tags.artifacts, tags_plans, hdone⟩
  obtain ⟨artifacts, hplans, hholds⟩ := hfiles hzero rfl
  obtain rfl := hplans.unique tags_plans
  refine ⟨tags_parse, hzero, hholds ?_ _ _ [] tags_artifacts_eq rfl (by simp)⟩
  exact fun a _ => ⟨fun location _ => tags_linkless location, fun location _ => tags_linkless location⟩

/-- The same with all directories of generated files beside the output directory, instead of in it. -/
def tags.outside : CommandLine := { tags.commandLine with layout := Layout.standard.under ⟨".."⟩ }

def tags.outsideArguments : List String :=
  ["models.json", "--out-dir", "out", "--resources-dir", "../resources",
   "--reference-dir", "../generated/resources", "--generated-dir", "../generated"]

theorem tags_outside_parse : CommandLine.parse tags.outsideArguments = .ok tags.outside := by decide +kernel

theorem tags_relative (a : Artifact) (ha : a ∈ tags.artifacts) : a.path.isAbsolute = false :=
  (path_of_generate tags_generate (by decide) ha).1.isAbsolute_eq

theorem tags_outside_plans :
    Program.Plans tags.outside tags.disk (tags.artifacts.map (·.under ⟨".."⟩)) :=
  ⟨tags.text, tags, tags_read, tags_ofText, generate_under tags_generate tags_relative⟩

/-- A run that succeeds and leaves a file that is to be overwritten nowhere below the output directory, although no
other file comes after it. -/
theorem run_strays_for_tags :
    CommandLine.parse tags.outsideArguments = .ok tags.outside ∧ tags.outside.dryRun = false ∧
      Program.Plans tags.outside tags.disk (tags.artifacts.map (·.under ⟨".."⟩)) ∧
      ((Program.run none tags.outsideArguments).run tags.disk).1.code = 0 ∧
      ∃ before a, tags.artifacts.map (·.under ⟨".."⟩) = before ++ [a] ∧ a.policy = .overwrite ∧
        ∀ below, ((Program.run none tags.outsideArguments).run tags.disk).2.tree.get?
          (tags.disk.site tags.outside.outDir ++ below) ≠ some (.file a.contents) := by
  have hdestination : Program.destination tags.outside = ⟨⟨"out"⟩, false⟩ := rfl
  have hunder : (⟨⟨"out"⟩, false⟩ : Destination).under ⟨".."⟩ = ⟨⟨"out/.."⟩, false⟩ := by decide
  have hroot : tags.disk.entry ⟨"out/.."⟩ = .ok .directory := by decide +kernel
  have hsite : tags.disk.site ⟨"out/.."⟩ = [] := by decide +kernel
  have hout : tags.disk.site tags.outside.outDir = ["out"] := by decide +kernel
  have hdone : ((Destination.writeAll ⟨⟨"out/.."⟩, false⟩ tags.artifacts).run tags.disk).1.failure? = none :=
    tags_delivers (by decide) (by decide) hroot (by simp [hsite])
  have hup : (Path.mk "..").isAbsolute = false := rfl
  obtain ⟨hfailure, hlater⟩ := Destination.writeAll_under ⟨⟨"out"⟩, false⟩ hup tags_relative tags.disk
  rw [hunder] at hfailure hlater
  refine ⟨tags_outside_parse, rfl, tags_outside_plans, ?_, tags.artifacts.dropLast.map (·.under ⟨".."⟩),
    tags.patterns.under ⟨".."⟩, ?_, rfl, ?_⟩
  · refine (Program.code_iff tags_outside_parse none tags.disk).2 ⟨_, tags_outside_plans, ?_⟩
    rw [hdestination, hfailure]
    exact hdone
  · conv_lhs => rw [tags_artifacts_eq]
    rw [List.map_append]
    rfl
  · intro below hfile
    rw [Program.disk_of_plans tags_outside_parse tags_outside_plans none, hdestination, hlater, hout] at hfile
    obtain ⟨-, hfiles⟩ := settled_of_generate tags_generate (by decide) rfl tags_linkless (fun _ => hroot) hdone
    rcases hfiles _ _ hfile with hbefore | ⟨b, hb, hplace⟩
    · exact absurd (tags_notes hbefore) (by decide +kernel)
    · obtain ⟨first, hfirst, rest, -, hparts⟩ := exists_within_of_generate tags_generate (by decide) hb
      rw [hsite, Artifact.place, (path_of_generate tags_generate (by decide) hb).1.way_eq, hparts] at hplace
      obtain ⟨rfl, -⟩ := List.cons.inj hplace
      simp at hfirst

end EntityForge
