import EntityForge.FileTree.Walk

/-!
What a program may ask of a disk, and what a disk that is a tree answers.

Only files and links are ever moved or removed. A request that is refused leaves the tree as it was.
-/

namespace EntityForge

inductive Request where
  /-- Is it a directory? Refused where nothing is. -/
  | probe (path : Path)
  | read (path : Path)
  | makeDirectory (path : Path)
  /-- A file that is there is emptied first. -/
  | write (path : Path) (contents : String)
  /-- A second name for what a first one stands for. -/
  | link (path new : Path)
  | remove (path : Path)
  /-- A file that has the new name already is replaced in the same step. -/
  | rename (path new : Path)
  deriving Repr, DecidableEq

@[reducible] def Request.Answer : Request → Type
  | .probe _ => Bool
  | .read _ => String
  | _ => Unit

/-- The paths that a request names. -/
def Request.paths : Request → List Path
  | .probe path | .read path | .makeDirectory path | .write path _ | .remove path => [path]
  | .link path new | .rename path new => [path, new]

/-- No path may hold the character that ends it. -/
def Request.hasNul (request : Request) : Bool :=
  request.paths.any fun path => path.text.toList.contains '\x00'

abbrev Request.Reply (request : Request) : Type := Except FileFault request.Answer

/-- A tree, and the directory in which relative paths start. -/
structure Disk where
  tree : FileTree
  here : Location
  deriving Repr, DecidableEq

namespace Disk

def empty : Disk := ⟨.empty, []⟩

/-- The longest path, in bytes, counted without what marks its end. -/
def pathLimit : Nat := 4095

def place (disk : Disk) (follow : Bool) (path : Path) : Except FileFault Place :=
  if path.text.utf8ByteSize > pathLimit then .error .nameTooLong
  else disk.tree.place follow disk.here path

/-- What stands at the end of a path, links followed. -/
def entry (disk : Disk) (path : Path) : Except FileFault Entry := do
  let place ← disk.place true path
  match place.entry? with
  | none => .error .notFound
  | some .directory => .ok .directory
  | some entry => if place.endsInSlash then .error .notADirectory else .ok entry

def probe (disk : Disk) (path : Path) : Except FileFault Bool := do
  return (← disk.entry path) = .directory

def read (disk : Disk) (path : Path) : Except FileFault String := do
  match ← disk.entry path with
  | .directory => .error .isADirectory
  | .file contents => .ok contents
  | .link _ => .error .tooManyLinks

/-- The place for something new. Only a directory may be asked for with a slash at the end. -/
def vacancy (disk : Disk) (directory : Bool) (path : Path) : Except FileFault Location := do
  let place ← disk.place false path
  if !place.isNamed || place.entry?.isSome then .error .alreadyExists
  else if place.endsInSlash && !directory then .error .notFound
  else .ok place.location

def makeDirectory (disk : Disk) (path : Path) : Except FileFault FileTree := do
  return disk.tree.set (← disk.vacancy true path) .directory

def makeLink (disk : Disk) (path target : Path) : Except FileFault FileTree := do
  if target.text.isEmpty then .error .notFound
  else return disk.tree.set (← disk.vacancy false path) (.link target)

/-- A link at the end of the path is followed, also one that leads to where nothing is yet. -/
def write (disk : Disk) (path : Path) (contents : String) : Except FileFault FileTree := do
  let place ← disk.place (!path.endsInSlash) path
  if place.endsInSlash || place.entry? = some .directory then .error .isADirectory
  else .ok (disk.tree.set place.location (.file contents))

def link (disk : Disk) (path new : Path) : Except FileFault FileTree := do
  let old ← disk.place path.endsInSlash path
  match old.entry? with
  | none => .error .notFound
  | some entry =>
    if old.endsInSlash && entry ≠ .directory then .error .notADirectory
    else
      let location ← disk.vacancy false new
      if entry = .directory then .error .notPermitted
      else .ok (disk.tree.set location entry)

def remove (disk : Disk) (path : Path) : Except FileFault FileTree := do
  let place ← disk.place false path
  match place.entry? with
  | none => .error .notFound
  | some .directory => .error .isADirectory
  | some _ =>
    if place.endsInSlash then .error .notADirectory else .ok (disk.tree.erase place.location)

def rename (disk : Disk) (path new : Path) : Except FileFault FileTree := do
  let old ← disk.place false path
  let target ← disk.place false new
  if !old.isNamed || !target.isNamed then .error .busy
  else
    match old.entry? with
    | none => .error .notFound
    | some .directory => .error .isADirectory
    | some entry =>
      if old.endsInSlash || target.endsInSlash then .error .notADirectory
      else if target.entry? = some .directory then .error .isADirectory
      else .ok ((disk.tree.erase old.location).set target.location entry)

/-- The disk after a change, or as it was where the change is refused. -/
def update (disk : Disk) : Except FileFault FileTree → Except FileFault Unit × Disk
  | .ok tree => (.ok (), { disk with tree := tree })
  | .error fault => (.error fault, disk)

def serve (disk : Disk) : (request : Request) → request.Reply × Disk
  | .probe path => (disk.probe path, disk)
  | .read path => (disk.read path, disk)
  | .makeDirectory path => disk.update (disk.makeDirectory path)
  | .write path contents => disk.update (disk.write path contents)
  | .link path new => disk.update (disk.link path new)
  | .remove path => disk.update (disk.remove path)
  | .rename path new => disk.update (disk.rename path new)

def answer (disk : Disk) (request : Request) : request.Reply × Disk :=
  if request.hasNul then (.error .nulByte, disk) else disk.serve request

end Disk

end EntityForge
