import EntityForge.Disk
import EntityForge.Proofs.Path

/-!
Where a path leads in a tree, whether or not anything stands there.

A walk is refused when a directory on its way is missing, so it does not by itself say which place a path
stands for. `landing` does: it follows links as a walk does and takes everything else for a directory. It
depends on nothing but the links of a tree, and every walk that is not refused ends where it says. What a walk
can do at a name is said once, by `course_cases`, `arrived_cases`, `linked_cases` and `walk_cases`. Main
statements: `landing_congr`, `landing_names`, `walk_append`, `walk_concat` and `walk_later`.
-/

namespace EntityForge

/-- Where a link leads to. -/
def Entry.target? : Entry → Option Path
  | .link target => some target
  | .directory | .file _ => none

namespace FileTree

def link? (tree : FileTree) (location : Location) : Option Path :=
  (tree.get? location).bind Entry.target?

theorem link?_eq_some {tree : FileTree} {location : Location} {target : Path} :
    tree.link? location = some target ↔ tree.get? location = some (.link target) := by
  unfold link?
  cases tree.get? location with
  | none => simp
  | some entry => cases entry <;> simp [Entry.target?]

theorem link?_eq_none {tree : FileTree} {location : Location} :
    tree.link? location = none ↔ ∀ target, tree.get? location ≠ some (.link target) := by
  simp only [← link?_eq_some, Option.eq_none_iff_forall_ne_some, ne_eq]

theorem mem_of_find? {entries : List (Location × Entry)} {location : Location} {entry : Entry}
    (h : find? entries location = some entry) : (location, entry) ∈ entries := by
  induction entries with
  | nil => cases h
  | cons first rest ih =>
    obtain ⟨place, old⟩ := first
    rw [find?] at h
    split at h
    · next hplace =>
      rw [hplace, Option.some.inj h]
      exact List.mem_cons_self
    · exact List.mem_cons_of_mem _ (ih h)

theorem link?_of_entries {tree : FileTree} (h : ∀ e ∈ tree.entries, e.2.target? = none)
    (location : Location) : tree.link? location = none := by
  rw [link?_eq_none]
  intro target htarget
  unfold get? at htarget
  split at htarget
  · cases htarget
  · have hnone := h _ (mem_of_find? htarget)
    cases hnone

/-- The way from a place as far as the first link: where it ends, or the link with the steps after it.
Whatever is no link counts as a directory. -/
def drift (tree : FileTree) : Location → List String → Location × Option (Path × List String)
  | here, [] => (here, none)
  | here, "." :: rest => drift tree here rest
  | here, ".." :: rest => drift tree here.dropLast rest
  | here, name :: rest =>
    match tree.link? (here ++ [name]) with
    | some target => (here, some (target, rest))
    | none => drift tree (here ++ [name]) rest

/-- The same way for one who has to go through directories. -/
def course (tree : FileTree) :
    Location → List String → Except FileFault (Location × Option (Path × List String))
  | here, [] => .ok (here, none)
  | here, "." :: rest => course tree here rest
  | here, ".." :: rest => course tree here.dropLast rest
  | here, name :: rest =>
    if name.utf8ByteSize > nameLimit then .error .nameTooLong
    else
      match tree.get? (here ++ [name]) with
      | none => .error .notFound
      | some .directory => course tree (here ++ [name]) rest
      | some (.file _) => .error .notADirectory
      | some (.link target) => .ok (here, some (target, rest))

/-- The place a way leads to. Where there are too many links no walk arrives, and the place is of no
use. -/
def landing (tree : FileTree) : Nat → Location → List String → Location
  | links, here, steps =>
    match tree.drift here steps with
    | (location, none) => location
    | (directory, some (target, rest)) =>
      match links with
      | 0 => directory ++ rest.filter (· ≠ ".")
      | links + 1 => landing tree links (startOf target directory) (FileTree.steps target ++ rest)

section Landing

variable {tree : FileTree} {links : Nat} {here location : Location} {steps rest : List String}
  {target : Path}

theorem landing_of_end (h : tree.drift here steps = (location, none)) :
    tree.landing links here steps = location := by
  unfold landing
  rw [h]

theorem landing_zero (h : tree.drift here steps = (location, some (target, rest))) :
    tree.landing 0 here steps = location ++ rest.filter (· ≠ ".") := by
  unfold landing
  rw [h]

theorem landing_succ (h : tree.drift here steps = (location, some (target, rest))) :
    tree.landing (links + 1) here steps =
      tree.landing links (startOf target location) (FileTree.steps target ++ rest) := by
  rw [landing, h]

end Landing

section Names

variable {tree : FileTree} {here : Location} {name : String} {rest : List String}

theorem drift_name (hhere : name ≠ ".") (hup : name ≠ "..") :
    tree.drift here (name :: rest) =
      match tree.link? (here ++ [name]) with
      | some target => (here, some (target, rest))
      | none => tree.drift (here ++ [name]) rest := by
  rw [drift]
  · exact hhere
  · exact hup

theorem course_name (hhere : name ≠ ".") (hup : name ≠ "..") :
    tree.course here (name :: rest) =
      if name.utf8ByteSize > nameLimit then .error .nameTooLong
      else
        match tree.get? (here ++ [name]) with
        | none => .error .notFound
        | some .directory => tree.course (here ++ [name]) rest
        | some (.file _) => .error .notADirectory
        | some (.link target) => .ok (here, some (target, rest)) := by
  rw [course]
  · exact hhere
  · exact hup

theorem stroll_name {follow slash : Bool} (hhere : name ≠ ".") (hup : name ≠ "..") :
    tree.stroll follow slash here (name :: rest) =
      if name.utf8ByteSize > nameLimit then .stopped .nameTooLong
      else
        match tree.get? (here ++ [name]) with
        | none =>
          if rest.isEmpty then .arrived ⟨here ++ [name], none, true, slash⟩
          else .stopped .notFound
        | some .directory =>
          if rest.isEmpty then .arrived ⟨here ++ [name], some .directory, true, slash⟩
          else tree.stroll follow slash (here ++ [name]) rest
        | some (.file contents) =>
          if rest.isEmpty then .arrived ⟨here ++ [name], some (.file contents), true, slash⟩
          else .stopped .notADirectory
        | some (.link target) =>
          if rest.isEmpty && !follow then
            .arrived ⟨here ++ [name], some (.link target), true, slash⟩
          else .linked here target rest :=
  stroll.eq_4 tree follow slash here name rest hhere hup

section Cases

variable {follow slash : Bool} (hhere : name ≠ ".") (hup : name ≠ "..")

include hhere hup

/-- Whoever gets through has met a directory at the first name, or a link. -/
theorem course_cases {result : Location × Option (Path × List String)}
    (h : tree.course here (name :: rest) = .ok result) :
    name.utf8ByteSize ≤ nameLimit ∧
      (tree.get? (here ++ [name]) = some .directory ∧ tree.course (here ++ [name]) rest = .ok result ∨
        ∃ target, tree.get? (here ++ [name]) = some (.link target) ∧ result = (here, some (target, rest))) := by
  rw [course_name hhere hup] at h
  by_cases hlong : name.utf8ByteSize > nameLimit
  · simp [hlong] at h
  rw [if_neg hlong] at h
  refine ⟨Nat.not_lt.1 hlong, ?_⟩
  cases hentry : tree.get? (here ++ [name]) with
  | none => simp [hentry] at h
  | some entry =>
    cases entry with
    | directory => exact Or.inl ⟨rfl, by simpa [hentry] using h⟩
    | file contents => simp [hentry] at h
    | link target => exact Or.inr ⟨target, rfl, by simpa [hentry, eq_comm] using h⟩

/-- A walk that arrives has ended at its first name, or has gone on from a directory there. -/
theorem arrived_cases {place : Place}
    (h : tree.stroll follow slash here (name :: rest) = .arrived place) :
    name.utf8ByteSize ≤ nameLimit ∧
      (rest = [] ∧ place = ⟨here ++ [name], tree.get? (here ++ [name]), true, slash⟩ ∨
        rest ≠ [] ∧ tree.get? (here ++ [name]) = some .directory ∧
          tree.stroll follow slash (here ++ [name]) rest = .arrived place) := by
  rw [stroll_name hhere hup] at h
  by_cases hlong : name.utf8ByteSize > nameLimit
  · simp [hlong] at h
  rw [if_neg hlong] at h
  refine ⟨Nat.not_lt.1 hlong, ?_⟩
  by_cases hlast : rest = []
  · left
    cases hentry : tree.get? (here ++ [name]) with
    | none => simpa [hentry, hlast, eq_comm] using h
    | some entry =>
      cases entry with
      | link target =>
        cases follow with
        | false => simpa [hentry, hlast, eq_comm] using h
        | true => simp [hentry, hlast] at h
      | _ => simpa [hentry, hlast, eq_comm] using h
  · right
    cases hentry : tree.get? (here ++ [name]) with
    | none => simp [hentry, hlast] at h
    | some entry =>
      cases entry with
      | directory => exact ⟨hlast, rfl, by simpa [hentry, hlast] using h⟩
      | _ => simp [hentry, hlast] at h

/-- A walk that meets a link has met it at its first name, or has gone on from a directory there. -/
theorem linked_cases {directory : Location} {target : Path} {more : List String}
    (h : tree.stroll follow slash here (name :: rest) = .linked directory target more) :
    tree.link? (here ++ [name]) = some target ∧ (rest ≠ [] ∨ follow = true) ∨
      rest ≠ [] ∧ tree.get? (here ++ [name]) = some .directory ∧
        tree.stroll follow slash (here ++ [name]) rest = .linked directory target more := by
  rw [stroll_name hhere hup] at h
  split at h
  · cases h
  · cases hentry : tree.get? (here ++ [name]) with
    | none => by_cases hlast : rest = [] <;> simp [hentry, hlast] at h
    | some entry =>
      cases entry with
      | directory =>
        by_cases hlast : rest = []
        · simp [hentry, hlast] at h
        · exact Or.inr ⟨hlast, rfl, by simpa [hentry, hlast] using h⟩
      | file contents => by_cases hlast : rest = [] <;> simp [hentry, hlast] at h
      | link found =>
        left
        rw [link?_eq_some, hentry]
        by_cases hlast : rest = []
        · cases follow <;> simp [hentry, hlast] at h
          exact ⟨by rw [h.2.1], Or.inr rfl⟩
        · simp only [hentry, List.isEmpty_eq_false_iff.2 hlast, Bool.false_and, Bool.false_eq_true, if_false,
            Stroll.linked.injEq] at h
          exact ⟨by rw [h.2.1], Or.inl hlast⟩

end Cases

end Names

/-- Where a path starts depends on nothing but whether it is absolute. -/
theorem startOf_congr {path other : Path} (h : path.isAbsolute = other.isAbsolute) (here : Location) :
    startOf path here = startOf other here := by
  unfold startOf
  rw [h]

/-- Induction on the steps of a way, by what each of them does. -/
theorem steps_induction {motive : Location → List String → Prop}
    (nil : ∀ here, motive here [])
    (stay : ∀ here rest, motive here rest → motive here ("." :: rest))
    (up : ∀ here rest, motive here.dropLast rest → motive here (".." :: rest))
    (name : ∀ here name rest, name ≠ "." → name ≠ ".." → motive (here ++ [name]) rest →
      motive here (name :: rest))
    (here : Location) (steps : List String) : motive here steps := by
  induction steps generalizing here with
  | nil => exact nil here
  | cons step rest ih =>
    by_cases hhere : step = "."
    · exact hhere ▸ stay here rest (ih here)
    · by_cases hup : step = ".."
      · exact hup ▸ up here rest (ih here.dropLast)
      · exact name here step rest hhere hup (ih (here ++ [step]))

/-- Whoever gets through comes to where the way leads. -/
theorem drift_of_course {tree : FileTree} {here : Location} {steps : List String}
    {result : Location × Option (Path × List String)} (h : tree.course here steps = .ok result) :
    tree.drift here steps = result := by
  induction here, steps using steps_induction with
  | nil here => simpa [course, drift] using h
  | stay here rest ih => exact ih (by simpa [course] using h)
  | up here rest ih => exact ih (by simpa [course] using h)
  | name here name rest hhere hup ih =>
    rw [drift_name hhere hup]
    obtain ⟨-, ⟨hdirectory, hrest⟩ | ⟨target, hlink, rfl⟩⟩ := course_cases hhere hup h
    · have hnone : tree.link? (here ++ [name]) = none := by simp [link?, hdirectory, Entry.target?]
      rw [hnone]
      exact ih hrest
    · rw [link?_eq_some.2 hlink]

theorem drift_append (tree : FileTree) (here : Location) (steps more : List String) :
    tree.drift here (steps ++ more) =
      match tree.drift here steps with
      | (location, none) => tree.drift location more
      | (directory, some (target, rest)) => (directory, some (target, rest ++ more)) := by
  induction here, steps using steps_induction with
  | nil here => simp [drift]
  | stay here rest ih => simpa [drift] using ih
  | up here rest ih => simpa [drift] using ih
  | name here name rest hhere hup ih =>
    rw [List.cons_append, drift_name hhere hup, drift_name hhere hup]
    split
    · rfl
    · exact ih

theorem drift_names {tree : FileTree} {here : Location} {names : List String}
    (hnames : ∀ name ∈ names, IsName name)
    (hlinks : ∀ below, below ≠ [] → below <+: names → tree.link? (here ++ below) = none) :
    tree.drift here names = (here ++ names, none) := by
  induction names generalizing here with
  | nil => simp [drift]
  | cons name rest ih =>
    have hname := hnames name List.mem_cons_self
    have hrest : tree.drift (here ++ [name]) rest = (here ++ [name] ++ rest, none) := by
      refine ih (fun n hn => hnames n (List.mem_cons_of_mem _ hn)) ?_
      intro below _ hbegins
      rw [List.append_assoc]
      exact hlinks (name :: below) (List.cons_ne_nil name below) ((List.prefix_cons_inj name).2 hbegins)
    rw [drift_name hname.ne_here hname.ne_up, hlinks [name] (by simp) (by simp), hrest,
      List.append_assoc, List.singleton_append]

theorem drift_congr {tree other : FileTree}
    (h : ∀ location, tree.link? location = other.link? location) (here : Location)
    (steps : List String) : tree.drift here steps = other.drift here steps := by
  induction here, steps using steps_induction with
  | nil here => simp [drift]
  | stay here rest ih => simpa [drift] using ih
  | up here rest ih => simpa [drift] using ih
  | name here name rest hhere hup ih =>
    rw [drift_name hhere hup, drift_name hhere hup, h, ih]

/-- Steps that stay where they are can be left out. -/
theorem drift_filter (tree : FileTree) (here : Location) (steps : List String) :
    tree.drift here (steps.filter (· ≠ ".")) =
      match tree.drift here steps with
      | (location, none) => (location, none)
      | (directory, some (target, rest)) =>
        (directory, some (target, rest.filter (· ≠ "."))) := by
  induction here, steps using steps_induction with
  | nil here => simp [drift]
  | stay here rest ih => simpa [drift] using ih
  | up here rest ih => simpa [drift] using ih
  | name here name rest hhere hup ih =>
    rw [List.filter_cons, if_pos (by simpa using hhere), drift_name hhere hup,
      drift_name hhere hup, ih]
    cases tree.link? (here ++ [name]) <;> rfl

/-- The place a way leads to depends on the links of a tree alone. -/
theorem landing_congr {tree other : FileTree}
    (h : ∀ location, tree.link? location = other.link? location) (links : Nat)
    (here : Location) (steps : List String) :
    tree.landing links here steps = other.landing links here steps := by
  induction links generalizing here steps with
  | zero =>
    unfold landing
    rw [drift_congr h]
  | succ links ih =>
    unfold landing
    rw [drift_congr h]
    split <;> simp [ih]

theorem landing_filter (tree : FileTree) (links : Nat) (here : Location) (steps : List String) :
    tree.landing links here (steps.filter (· ≠ ".")) = tree.landing links here steps := by
  have hfilter := drift_filter tree here steps
  rcases hdrift : tree.drift here steps with ⟨location, _ | ⟨target, rest⟩⟩ <;>
    rw [hdrift] at hfilter <;> simp only at hfilter
  · rw [landing_of_end hfilter, landing_of_end hdrift]
  · cases links with
    | zero => rw [landing_zero hfilter, landing_zero hdrift, List.filter_filter]; simp
    | succ links =>
      -- both sides are the landing of one way with its idle steps left out
      rw [landing_succ hfilter, landing_succ hdrift,
        ← landing_filter tree links _ (FileTree.steps target ++ rest),
        ← landing_filter tree links _ (FileTree.steps target ++ rest.filter _)]
      simp

/-- Where no links are met, names lead where they say. -/
theorem landing_names {tree : FileTree} {links : Nat} {here : Location} {steps names : List String}
    (hnames : ∀ name ∈ names, IsName name)
    (hlinks : ∀ below, below ≠ [] → below <+: names →
      tree.link? (tree.landing links here steps ++ below) = none) :
    tree.landing links here (steps ++ names) = tree.landing links here steps ++ names := by
  have happend := drift_append tree here steps names
  rcases hdrift : tree.drift here steps with ⟨location, _ | ⟨target, rest⟩⟩
  · rw [landing_of_end hdrift] at hlinks ⊢
    rw [hdrift] at happend
    simp only at happend
    rw [drift_names hnames hlinks] at happend
    exact landing_of_end happend
  · rw [hdrift] at happend
    cases links with
    | zero =>
      have hfilter : names.filter (· ≠ ".") = names := by
        rw [List.filter_eq_self]
        intro name hname
        simpa using (hnames name hname).ne_here
      rw [landing_zero happend, landing_zero hdrift, List.filter_append, hfilter,
        List.append_assoc]
    | succ links =>
      rw [landing_succ hdrift] at hlinks ⊢
      rw [landing_succ happend, ← List.append_assoc]
      exact landing_names hnames hlinks

theorem course_append (tree : FileTree) (here : Location) (steps more : List String) :
    tree.course here (steps ++ more) =
      match tree.course here steps with
      | .error fault => .error fault
      | .ok (location, none) => tree.course location more
      | .ok (directory, some (target, rest)) => .ok (directory, some (target, rest ++ more)) := by
  induction here, steps using steps_induction with
  | nil here => simp [course]
  | stay here rest ih => simpa [course] using ih
  | up here rest ih => simpa [course] using ih
  | name here first rest hhere hup ih =>
    rw [List.cons_append, course_name hhere hup, course_name hhere hup]
    split
    · rfl
    · cases tree.get? (here ++ [first]) with
      | none => rfl
      | some entry => cases entry <;> simp [ih]

/-- A walk through nothing but directories arrives at the last one. -/
theorem stroll_of_course {tree : FileTree} {here location : Location} {steps : List String}
    (h : tree.course here steps = .ok (location, none)) (follow slash : Bool) :
    ∃ named, tree.stroll follow slash here steps = .arrived ⟨location, some .directory, named, slash⟩ := by
  induction here, steps using steps_induction with
  | nil here =>
    obtain rfl : here = location := by simpa [course] using h
    exact ⟨false, rfl⟩
  | stay here rest ih => simpa [stroll] using ih (by simpa [course] using h)
  | up here rest ih => simpa [stroll] using ih (by simpa [course] using h)
  | name here name rest hhere hup ih =>
    obtain ⟨hshort, ⟨hdirectory, hcourse⟩ | ⟨target, -, hlinked⟩⟩ := course_cases hhere hup h
    · rw [stroll_name hhere hup, if_neg (Nat.not_lt.2 hshort), hdirectory]
      by_cases hrest : rest = []
      · rw [hrest] at hcourse
        obtain rfl : here ++ [name] = location := by simpa [course] using hcourse
        exact ⟨true, by simp [hrest]⟩
      · simpa [hrest] using ih hcourse
    · cases hlinked

/-- A walk that arrives at a directory has gone through nothing but directories. -/
theorem course_of_stroll {tree : FileTree} {here : Location} {steps : List String} {follow slash : Bool}
    {place : Place} (h : tree.stroll follow slash here steps = .arrived place)
    (hentry : place.entry? = some .directory) : tree.course here steps = .ok (place.location, none) := by
  induction here, steps using steps_induction with
  | nil here =>
    cases h
    rfl
  | stay here rest ih => exact ih (by simpa [stroll] using h)
  | up here rest ih => exact ih (by simpa [stroll] using h)
  | name here name rest hhere hup ih =>
    obtain ⟨hshort, hcases⟩ := arrived_cases hhere hup h
    rw [course_name hhere hup, if_neg (Nat.not_lt.2 hshort)]
    obtain ⟨rfl, rfl⟩ | ⟨-, hdirectory, hrest⟩ := hcases
    · dsimp only at hentry
      rw [hentry]
      rfl
    · rw [hdirectory]
      exact ih hrest

/-- Through names at which there is no file one gets, or there is a name at which there is nothing yet. -/
theorem course_names {tree : FileTree} {here : Location} {names : List String}
    (hnames : ∀ name ∈ names, IsName name)
    (hshort : ∀ name ∈ names, name.utf8ByteSize ≤ nameLimit)
    (hfree : ∀ above, above ≠ [] → above <+: names →
      tree.get? (here ++ above) = none ∨ tree.get? (here ++ above) = some .directory) :
    tree.course here names = .ok (here ++ names, none) ∨ tree.course here names = .error .notFound := by
  induction names generalizing here with
  | nil => exact Or.inl (by rw [course, List.append_nil])
  | cons name rest ih =>
    obtain ⟨hname, hrest⟩ := List.forall_mem_cons.1 hnames
    obtain ⟨hnameShort, hrestShort⟩ := List.forall_mem_cons.1 hshort
    rw [course_name hname.ne_here hname.ne_up, if_neg (Nat.not_lt.2 hnameShort)]
    rcases hfree [name] (by simp) (by simp) with hnone | hdirectory
    · rw [hnone]
      exact Or.inr rfl
    · rw [hdirectory]
      have hbelow : tree.course (here ++ [name]) rest = .ok (here ++ [name] ++ rest, none) ∨
          tree.course (here ++ [name]) rest = .error .notFound := by
        refine ih hrest hrestShort ?_
        intro above hne hbegins
        rw [List.append_assoc]
        exact hfree (name :: above) (List.cons_ne_nil name above) ((List.prefix_cons_inj name).2 hbegins)
      rwa [List.append_assoc] at hbelow

/-- A walk that has to go on after some steps goes through directories up to there. -/
theorem stroll_append {more : List String} (hmore : more ≠ []) (tree : FileTree) (follow slash : Bool)
    (here : Location) (steps : List String) :
    tree.stroll follow slash here (steps ++ more) =
      match tree.course here steps with
      | .error fault => .stopped fault
      | .ok (location, none) => tree.stroll follow slash location more
      | .ok (directory, some (target, rest)) => .linked directory target (rest ++ more) := by
  induction here, steps using steps_induction with
  | nil here => simp [course]
  | stay here rest ih => simpa [course, stroll] using ih
  | up here rest ih => simpa [course, stroll] using ih
  | name here first rest hhere hup ih =>
    rw [List.cons_append, stroll_name hhere hup, course_name hhere hup]
    split
    · rfl
    · cases tree.get? (here ++ [first]) with
      | none => simp [hmore]
      | some entry => cases entry <;> simp [ih, hmore]

/-- The last step of a walk, to a name at which there is no link. -/
theorem stroll_last {tree : FileTree} {name : String} (hname : IsName name)
    {location : Location} (hlink : tree.link? (location ++ [name]) = none) (follow slash : Bool) :
    tree.stroll follow slash location [name] =
      if name.utf8ByteSize > nameLimit then .stopped .nameTooLong
      else .arrived ⟨location ++ [name], tree.get? (location ++ [name]), true, slash⟩ := by
  rw [stroll_name hname.ne_here hname.ne_up]
  split
  · rfl
  · rw [link?_eq_none] at hlink
    cases hentry : tree.get? (location ++ [name]) with
    | none => simp
    | some entry =>
      cases entry with
      | directory => simp
      | file contents => simp
      | link target => exact absurd hentry (hlink target)

/-- A walk that is not refused comes to the landing of its first steps, and goes on from there. -/
theorem walk_append {tree : FileTree} {follow slash : Bool} {links : Nat} {here : Location}
    {steps more : List String} {place : Place} (hmore : more ≠ [])
    (h : tree.walk follow slash links here (steps ++ more) = .ok place) :
    ∃ left, tree.walk follow slash left (tree.landing links here steps) more = .ok place := by
  unfold walk at h
  rw [stroll_append hmore] at h
  cases hcourse : tree.course here steps with
  | error fault => simp [hcourse] at h
  | ok result =>
    have hdrift := drift_of_course hcourse
    rcases result with ⟨location, _ | ⟨target, rest⟩⟩
    · rw [landing_of_end hdrift]
      refine ⟨links, ?_⟩
      unfold walk
      rwa [hcourse] at h
    · cases links with
      | zero => simp [hcourse] at h
      | succ links =>
        rw [landing_succ hdrift]
        have hrest : (rest ++ more).isEmpty = false := by simp [hmore]
        simp only [hcourse, hrest, Bool.false_and, Bool.or_false] at h
        rw [← List.append_assoc] at h
        exact walk_append hmore h

/-- A walk that is not refused ends at its first name, or finds a directory or a link there. -/
theorem walk_cases {tree : FileTree} {follow slash : Bool} {links : Nat} {here : Location} {name : String}
    {rest : List String} {place : Place} (hhere : name ≠ ".") (hup : name ≠ "..")
    (h : tree.walk follow slash links here (name :: rest) = .ok place) :
    rest = [] ∧ place = ⟨here ++ [name], tree.get? (here ++ [name]), true, slash⟩ ∨
      rest ≠ [] ∧ tree.get? (here ++ [name]) = some .directory ∨
      (∃ target, tree.link? (here ++ [name]) = some target) ∧ (rest ≠ [] ∨ follow = true) := by
  unfold walk at h
  split at h
  · next harrived =>
    cases h
    exact (arrived_cases hhere hup harrived).2.imp_right fun hmore => Or.inl ⟨hmore.1, hmore.2.1⟩
  · cases h
  · next hlinked =>
    right
    rcases linked_cases hhere hup hlinked with ⟨hlink, hon⟩ | ⟨hmore, hdirectory, -⟩
    · exact Or.inr ⟨⟨_, hlink⟩, hon⟩
    · exact Or.inl ⟨hmore, hdirectory⟩

/-- A walk that ends in a name, and is not refused, ends at the landing of its way. -/
theorem walk_concat {tree : FileTree} {name : String} (hname : IsName name)
    {follow slash : Bool} {links : Nat} {here : Location} {steps : List String} {place : Place}
    (hlink : tree.link? (tree.landing links here steps ++ [name]) = none)
    (h : tree.walk follow slash links here (steps ++ [name]) = .ok place) :
    place = ⟨tree.landing links here steps ++ [name],
      tree.get? (tree.landing links here steps ++ [name]), true, slash⟩ := by
  obtain ⟨left, h⟩ := walk_append (List.cons_ne_nil name []) h
  rcases walk_cases hname.ne_here hname.ne_up h with ⟨-, hplace⟩ | ⟨hmore, -⟩ | ⟨⟨target, hfound⟩, -⟩
  · exact hplace
  · exact absurd rfl hmore
  · rw [hlink] at hfound
    cases hfound

section Part

variable {tree whole : FileTree}
  (hdirectories : ∀ location, tree.get? location = some .directory → whole.get? location = some .directory)
  (hlinks : ∀ location target, tree.get? location = some (.link target) → whole.get? location = some (.link target))

include hdirectories hlinks

/-- Whoever gets through a part of a tree gets through the whole. -/
theorem course_mono {here : Location} {steps : List String}
    {result : Location × Option (Path × List String)} (h : tree.course here steps = .ok result) :
    whole.course here steps = .ok result := by
  induction here, steps using steps_induction with
  | nil here => simpa [course] using h
  | stay here rest ih => exact ih (by simpa [course] using h)
  | up here rest ih => exact ih (by simpa [course] using h)
  | name here name rest hhere hup ih =>
    obtain ⟨hshort, hcases⟩ := course_cases hhere hup h
    rw [course_name hhere hup, if_neg (Nat.not_lt.2 hshort)]
    obtain ⟨hdirectory, hrest⟩ | ⟨target, hlink, rfl⟩ := hcases
    · rw [hdirectories _ hdirectory]
      exact ih hrest
    · rw [hlinks _ _ hlink]

/-- A walk that is not refused in a part of a tree goes where its steps lead in the whole. -/
theorem landing_of_part {follow slash : Bool} {links : Nat} {here : Location} {steps more : List String}
    (hmore : more ≠ []) {place : Place} (h : tree.walk follow slash links here (steps ++ more) = .ok place) :
    whole.landing links here steps = tree.landing links here steps := by
  unfold walk at h
  rw [stroll_append hmore] at h
  cases hcourse : tree.course here steps with
  | error fault => simp [hcourse] at h
  | ok result =>
    have hdrift := drift_of_course hcourse
    have hwhole := drift_of_course (course_mono hdirectories hlinks hcourse)
    rcases result with ⟨location, _ | ⟨target, rest⟩⟩
    · rw [landing_of_end hdrift, landing_of_end hwhole]
    · cases links with
      | zero => simp [hcourse] at h
      | succ links =>
        rw [landing_succ hdrift, landing_succ hwhole]
        simp only [hcourse] at h
        rw [← List.append_assoc] at h
        exact landing_of_part hmore h

end Part

section Later

variable {tree later : FileTree} (hlinks : ∀ location, later.link? location = tree.link? location)
  (hdirectories : ∀ location, tree.get? location = some .directory →
    later.get? location = some .directory)

include hlinks hdirectories

/-- Where no directory goes and no link changes, whoever got through gets through again. -/
theorem course_later {here : Location} {steps : List String}
    {result : Location × Option (Path × List String)} (h : tree.course here steps = .ok result) :
    later.course here steps = .ok result := by
  refine course_mono hdirectories (fun location target htarget => ?_) h
  rw [← link?_eq_some, hlinks, link?_eq_some]
  exact htarget

theorem walk_later {name : String} (hname : IsName name) {follow again slash : Bool} {links : Nat}
    {here : Location} {steps : List String} {place : Place}
    (hlink : tree.link? (tree.landing links here steps ++ [name]) = none)
    (h : tree.walk follow slash links here (steps ++ [name]) = .ok place) :
    later.walk again slash links here (steps ++ [name]) =
      .ok ⟨tree.landing links here steps ++ [name],
        later.get? (tree.landing links here steps ++ [name]), true, slash⟩ := by
  unfold walk at h ⊢
  rw [stroll_append (List.cons_ne_nil name [])] at h ⊢
  cases hcourse : tree.course here steps with
  | error fault => simp [hcourse] at h
  | ok result =>
    have hdrift := drift_of_course hcourse
    rw [course_later hlinks hdirectories hcourse]
    rcases result with ⟨location, _ | ⟨target, rest⟩⟩
    · rw [landing_of_end hdrift] at hlink ⊢
      have hlater : later.link? (location ++ [name]) = none := by rw [hlinks, hlink]
      simp only [hcourse, stroll_last hname hlink] at h
      simp only [stroll_last hname hlater]
      by_cases hlength : name.utf8ByteSize > nameLimit
      · simp [hlength] at h
      · simp [hlength]
    · cases links with
      | zero => simp [hcourse] at h
      | succ links =>
        rw [landing_succ hdrift] at hlink ⊢
        have hrest : (rest ++ [name]).isEmpty = false := by simp
        simp only [hcourse, hrest, Bool.false_and, Bool.or_false] at h ⊢
        rw [← List.append_assoc] at h ⊢
        exact walk_later hname hlink h

end Later

/-- What stands where a walk ends in a name. -/
theorem stroll_entry {tree : FileTree} {follow slash : Bool} {here : Location}
    {steps : List String} {place : Place}
    (h : tree.stroll follow slash here steps = .arrived place) (hnamed : place.isNamed = true) :
    place.entry? = tree.get? place.location := by
  induction here, steps using steps_induction with
  | nil here =>
    simp only [stroll, Stroll.arrived.injEq] at h
    rw [← h] at hnamed
    cases hnamed
  | stay here rest ih => exact ih (by simpa [stroll] using h)
  | up here rest ih => exact ih (by simpa [stroll] using h)
  | name here name rest hhere hup ih =>
    obtain ⟨-, ⟨-, rfl⟩ | ⟨-, -, hrest⟩⟩ := arrived_cases hhere hup h
    · rfl
    · exact ih hrest

theorem walk_entry {tree : FileTree} {follow slash : Bool} {links : Nat} {here : Location}
    {steps : List String} {place : Place}
    (h : tree.walk follow slash links here steps = .ok place) (hnamed : place.isNamed = true) :
    place.entry? = tree.get? place.location := by
  unfold walk at h
  split at h
  · next harrived =>
    cases h
    exact stroll_entry harrived hnamed
  · cases h
  · cases links with
    | zero => cases h
    | succ links => exact walk_entry h hnamed

/-- A walk that ends in a name, and does not follow a link there, ends in the landing of the steps before. -/
theorem walk_named {tree : FileTree} {slash : Bool} {links : Nat} {here : Location} {above : List String}
    {name : String} {place : Place} (h : tree.walk false slash links here (above ++ [name]) = .ok place)
    (hnamed : place.isNamed = true) :
    name ≠ "." ∧ name ≠ ".." ∧ place.location = tree.landing links here above ++ [name] := by
  obtain ⟨left, h⟩ := walk_append (List.cons_ne_nil name []) h
  have hhere : name ≠ "." := by
    rintro rfl
    unfold walk at h
    obtain rfl := Except.ok.inj h
    cases hnamed
  have hup : name ≠ ".." := by
    rintro rfl
    unfold walk at h
    obtain rfl := Except.ok.inj h
    cases hnamed
  refine ⟨hhere, hup, ?_⟩
  rcases walk_cases hhere hup h with ⟨-, rfl⟩ | ⟨hmore, -⟩ | ⟨-, hmore | hfollow⟩
  · rfl
  · exact absurd rfl hmore
  · exact absurd rfl hmore
  · cases hfollow

section Name

variable {tree : FileTree} {follow slash : Bool} {links : Nat} {here : Location} {before after : List String}
  {name : String} {place : Place}
  (h : tree.walk follow slash links here (before ++ name :: after) = .ok place) (hhere : name ≠ ".")
  (hup : name ≠ "..")

include h hhere hup

/-- A walk that arrives at a directory has met a directory or a link at every name. -/
theorem met_of_walk (hentry : place.entry? = some .directory) :
    tree.get? (tree.landing links here before ++ [name]) = some .directory ∨
      ∃ target, tree.link? (tree.landing links here before ++ [name]) = some target := by
  obtain ⟨left, h⟩ := walk_append (List.cons_ne_nil name after) h
  rcases walk_cases hhere hup h with ⟨-, rfl⟩ | ⟨-, hdirectory⟩ | ⟨hlink, -⟩
  · exact Or.inl hentry
  · exact Or.inl hdirectory
  · exact Or.inr hlink

/-- A walk that comes to a name at which nothing stands ends there. -/
theorem walk_vacant (hnone : tree.get? (tree.landing links here before ++ [name]) = none) :
    after = [] ∧ place = ⟨tree.landing links here before ++ [name], none, true, slash⟩ := by
  obtain ⟨left, h⟩ := walk_append (List.cons_ne_nil name after) h
  rcases walk_cases hhere hup h with ⟨hlast, rfl⟩ | ⟨-, hdirectory⟩ | ⟨⟨target, hlink⟩, -⟩
  · exact ⟨hlast, by rw [hnone]⟩
  · rw [hnone] at hdirectory
    cases hdirectory
  · rw [link?_eq_some, hnone] at hlink
    cases hlink

end Name

end FileTree

end EntityForge
