import EntityForge.Json.Printer
import EntityForge.Path

/-!
Generated files: where each goes, what it holds, and what is done with a file that is there already.
-/

namespace EntityForge

inductive WritePolicy where
  /-- For files that are edited by hand: one that exists is left alone. -/
  | skipIfExists
  | overwrite
  deriving Repr, DecidableEq

def WritePolicy.name : WritePolicy → String
  | .skipIfExists => "SkipIfExists"
  | .overwrite => "Overwrite"

structure Artifact where
  path : Path
  contents : String
  policy : WritePolicy
  deriving Repr, DecidableEq

/-- The directories that generated files go to. -/
structure Layout where
  /-- Files that are edited by hand. -/
  resources : Path
  /-- A fresh copy of those files, made in every run. -/
  reference : Path
  /-- Files about all entities together. -/
  generated : Path
  deriving Repr, DecidableEq

def Layout.standard : Layout :=
  ⟨⟨"resources"⟩, ⟨"generated/resources"⟩, ⟨"generated"⟩⟩

namespace Artifact

/-- The first artifact at a place. -/
def find? (artifacts : List Artifact) (path : Path) : Option Artifact :=
  artifacts.find? fun a => a.path.isSame path

/-- The key of a path in a bundle: its text, in which every backslash has become a slash. -/
def bundleKey (path : Path) : String :=
  String.ofList (path.text.toList.map fun c => if c = '\\' then '/' else c)

/-- All contents under their keys, as one object. -/
def bundle (artifacts : List Artifact) : Json :=
  .object (Entries.ofList (artifacts.map fun a => (bundleKey a.path, .string a.contents)))

end Artifact

end EntityForge
