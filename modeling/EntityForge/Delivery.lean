import EntityForge.Artifact
import EntityForge.Session

/-!
How generated files reach a disk.

Contents are first written to a temporary file beside the place where they belong, and then take that
place in a single step, so a file is never seen half written. Files that are edited by hand go first: if
one of them cannot be written, all others are left as they were.
-/

namespace EntityForge

structure DeliveryError where
  path : Path
  fault : FileFault
  deriving Repr, DecidableEq

def DeliveryError.message (e : DeliveryError) : String :=
  "Failed to write " ++ e.path.text ++ ": " ++ e.fault.text

inductive Outcome where
  | written
  | skipped
  /-- Nothing is touched when a run is only tried out. -/
  | planned
  deriving Repr, DecidableEq

def Outcome.name : Outcome → String
  | .written => "Written"
  | .skipped => "Skipped"
  | .planned => "Planned"

/-- Where files are delivered to, and whether that is only tried out. -/
structure Destination where
  root : Path
  dryRun : Bool
  deriving Repr, DecidableEq

/-- What has come of some files, up to the first one that failed. -/
structure DeliveryReport where
  delivered : List (Artifact × Outcome)
  failure? : Option DeliveryError
  deriving Repr, DecidableEq

namespace Delivery

abbrev Attempt (α : Type) := ExceptT DeliveryError Session α

/-- A reply, in which a refusal is put down to a path. -/
def orBlame {α : Type} (path : Path) (reply : Session (Except FileFault α)) : Attempt α :=
  ExceptT.mk do return (← reply).mapError (DeliveryError.mk path)

/-- The temporary file beside a place. -/
def staging (target : Path) : Path :=
  target.withFileName ("." ++ target.fileName?.getD "" ++ ".tmp")

/-- A new file. If another one has come to its place in the meantime, that one stays. -/
def writeNew (target : Path) (contents : String) : Attempt Outcome := do
  if ← Session.exists? target then return .skipped
  orBlame (staging target) (Session.send (.write (staging target) contents))
  let linked ← Session.send (.link (staging target) target)
  let _ ← Session.send (.remove (staging target))
  match linked with
  | .ok () => return .written
  | .error .alreadyExists => return .skipped
  | .error fault => throw ⟨target, fault⟩

/-- A file in the place of one that may be there. -/
def replace (target : Path) (contents : String) : Attempt Outcome := do
  orBlame (staging target) (Session.send (.write (staging target) contents))
  orBlame target (Session.send (.rename (staging target) target))
  return .written

def makeParent (target : Path) : Attempt Unit :=
  match target.parent? with
  | some parent => orBlame parent (Session.makeDirectories parent.ancestors)
  | none => return ()

end Delivery

namespace Destination

open Delivery

def write (destination : Destination) (artifact : Artifact) : Attempt Outcome := do
  let target := destination.root.join artifact.path
  if destination.dryRun then return .planned
  makeParent target
  match artifact.policy with
  | .skipIfExists => writeNew target artifact.contents
  | .overwrite => replace target artifact.contents

/-- One file after the other, up to the first that fails. -/
def writeEach (destination : Destination) : List Artifact → Session DeliveryReport
  | [] => return ⟨[], none⟩
  | artifact :: artifacts => do
    match ← (destination.write artifact).run with
    | .error failure => return ⟨[], some failure⟩
    | .ok outcome =>
      let rest ← writeEach destination artifacts
      return { rest with delivered := (artifact, outcome) :: rest.delivered }

/-- The order of delivery: files that are edited by hand before all others. -/
def order (artifacts : List Artifact) : List Artifact :=
  artifacts.filter (fun a => a.policy = .skipIfExists)
    ++ artifacts.filter (fun a => a.policy = .overwrite)

def writeAll (destination : Destination) (artifacts : List Artifact) : Session DeliveryReport :=
  destination.writeEach (order artifacts)

end Destination

end EntityForge
