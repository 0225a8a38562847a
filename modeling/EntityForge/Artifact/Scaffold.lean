import EntityForge.Artifact
import EntityForge.Surface.Text

/-!
The files of a single entity. Each is made twice: once to be edited by hand, and once for reference.
-/

namespace EntityForge

/-- The place of a surface that has a file of its own, within the directory of all such files. -/
def Surface.file? (kebabPlural : String) : Surface → Option Path
  | .controller => some ⟨s!"{kebabPlural}/{kebabPlural}.controller.ts"⟩
  | .service => some ⟨s!"{kebabPlural}/{kebabPlural}.service.ts"⟩
  | .guard => some ⟨s!"{kebabPlural}/{kebabPlural}.guard.ts"⟩
  | .repository => some ⟨s!"{kebabPlural}/{kebabPlural}.repository.ts"⟩
  | .createDto => some ⟨s!"{kebabPlural}/dto/{kebabPlural}.create.dto.ts"⟩
  | .updateDto => some ⟨s!"{kebabPlural}/dto/{kebabPlural}.update.dto.ts"⟩
  | .searchDto => some ⟨s!"{kebabPlural}/dto/{kebabPlural}.search.dto.ts"⟩
  | _ => none

namespace Artifact

/-- The two copies of one file, the one to be edited first. -/
def copies (layout : Layout) (file : Path) (contents : String) : List Artifact :=
  [⟨layout.resources.join file, contents, .skipIfExists⟩,
   ⟨layout.reference.join file, contents, .overwrite⟩]

def scaffold (layout : Layout) (subject : Subject) : List Artifact :=
  Surface.all.flatMap fun surface =>
    match surface.file? subject.names.kebabPlural with
    | some file => copies layout file (surface.text subject)
    | none => []

end Artifact

end EntityForge
