import EntityForge.FileTree

/-!
Where a path leads in a tree.

A walk takes one part of the path after the other. A symbolic link is replaced by its target, at most
forty times in one walk, so a walk that goes round in a circle ends too.
-/

namespace EntityForge

/-- Why something that is asked of a disk is refused. -/
inductive FileFault where
  | notFound
  | alreadyExists
  | notADirectory
  | isADirectory
  | nameTooLong
  | tooManyLinks
  | notPermitted
  | busy
  | nulByte
  | noRoot
  | other (reason : String)
  deriving Repr, DecidableEq

def FileFault.text : FileFault → String
  | .notFound => "No such file or directory (os error 2)"
  | .alreadyExists => "File exists (os error 17)"
  | .notADirectory => "Not a directory (os error 20)"
  | .isADirectory => "Is a directory (os error 21)"
  | .nameTooLong => "File name too long (os error 36)"
  | .tooManyLinks => "Too many levels of symbolic links (os error 40)"
  | .notPermitted => "Operation not permitted (os error 1)"
  | .busy => "Device or resource busy (os error 16)"
  | .nulByte => "file name contained an unexpected NUL byte"
  | .noRoot => "failed to create whole tree"
  | .other reason => reason

/-- Where a walk ends. -/
structure Place where
  location : Location
  /-- Nothing may stand there yet; the directory it would stand in exists. -/
  entry? : Option Entry
  /-- Whether the walk ended with a name, and not with a step to the root, upwards or nowhere. -/
  isNamed : Bool
  /-- Whether the path insists on a directory by a slash at its end. -/
  endsInSlash : Bool
  deriving Repr, DecidableEq

namespace FileTree

/-- The longest name, in bytes. -/
def nameLimit : Nat := 255

/-- The most links that are followed in one walk. -/
def linkLimit : Nat := 40

/-- The steps of a path. -/
def steps (path : Path) : List String := path.parts.filter (· ≠ "")

inductive Stroll where
  | arrived (place : Place)
  /-- A link is met in a directory, with some steps left after it. -/
  | linked (directory : Location) (target : Path) (rest : List String)
  | stopped (fault : FileFault)
  deriving Repr, DecidableEq

/-- A walk up to the first link that has to be followed; the last one only if `follow` says so. -/
def stroll (tree : FileTree) (follow slash : Bool) : Location → List String → Stroll
  | here, [] => .arrived ⟨here, some .directory, false, slash⟩
  | here, "." :: rest => stroll tree follow slash here rest
  | here, ".." :: rest => stroll tree follow slash here.dropLast rest
  | here, name :: rest =>
    let location := here ++ [name]
    if name.utf8ByteSize > nameLimit then .stopped .nameTooLong
    else
      match tree.get? location with
      | none =>
        if rest.isEmpty then .arrived ⟨location, none, true, slash⟩ else .stopped .notFound
      | some .directory =>
        if rest.isEmpty then .arrived ⟨location, some .directory, true, slash⟩
        else stroll tree follow slash location rest
      | some (.file contents) =>
        if rest.isEmpty then .arrived ⟨location, some (.file contents), true, slash⟩
        else .stopped .notADirectory
      | some (.link target) =>
        if rest.isEmpty && !follow then .arrived ⟨location, some (.link target), true, slash⟩
        else .linked here target rest

/-- Where a path starts that is met in a directory. -/
def startOf (path : Path) (directory : Location) : Location :=
  if path.isAbsolute then [] else directory

def walk (tree : FileTree) (follow slash : Bool) :
    Nat → Location → List String → Except FileFault Place
  | links, here, steps =>
    match stroll tree follow slash here steps with
    | .arrived place => .ok place
    | .stopped fault => .error fault
    | .linked directory target rest =>
      match links with
      | 0 => .error .tooManyLinks
      | links + 1 =>
        let slash := slash || (rest.isEmpty && target.endsInSlash)
        walk tree follow slash links (startOf target directory) (FileTree.steps target ++ rest)

/-- The place of a path; a relative one starts in a working directory. -/
def place (tree : FileTree) (follow : Bool) (here : Location) (path : Path) :
    Except FileFault Place :=
  if path.text.isEmpty then .error .notFound
  else walk tree follow path.endsInSlash linkLimit (startOf path here) (steps path)

end FileTree

end EntityForge
