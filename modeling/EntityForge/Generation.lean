import EntityForge.Artifact.Aggregate
import EntityForge.Artifact.Scaffold
import EntityForge.Document.Reader
import EntityForge.PublishedApi
import EntityForge.Schema.Load

/-!
From a schema to everything that is generated from it.

Entities are taken in the order of the schema: first the files of each one, then the files about all of
them. A schema that does not resolve yields nothing at all.
-/

namespace EntityForge

inductive GenerationError where
  | unresolved (e : ResolveError)
  /-- The OpenAPI text of an entity cannot be read back. -/
  | unreadable (fault : Json.Fault)
  deriving Repr, DecidableEq

/-- The OpenAPI document of some entities under a header. -/
def PublishedApi.ofSubjects (api : ApiHeader) (subjects : List Subject) :
    Except Json.Fault Json :=
  mergeTexts (header api) (subjects.map Surface.openApi.text)

namespace Schema

def subjects (schema : Schema) (policy : OwnerPolicy) : Except ResolveError (List Subject) := do
  return (← schema.resolve).map (Subject.of policy)

def generate (schema : Schema) (policy : OwnerPolicy) (layout : Layout) :
    Except GenerationError (List Artifact) := do
  let subjects ← (schema.subjects policy).mapError .unresolved
  let api ← (PublishedApi.ofSubjects schema.api subjects).mapError .unreadable
  return subjects.flatMap (Artifact.scaffold layout) ++ Aggregate.artifacts layout subjects api

end Schema

/-- Why a text does not lead to generated files. -/
inductive SourceError where
  | document (fault : Json.Fault)
  | schema (e : LoadError)
  | generation (e : GenerationError)
  deriving Repr, DecidableEq

def Schema.ofText (text : String) : Except SourceError Schema := do
  let document ← (Document.parse text).mapError .document
  (Schema.load document).mapError .schema

/-- What is generated from a text when nothing else is said. -/
def generateFromText (text : String) : Except SourceError (List Artifact) := do
  let schema ← Schema.ofText text
  (schema.generate .standard .standard).mapError .generation

/-- What is generated from a text as one JSON text: an object of contents under paths. -/
def bundleFromText (text : String) : Except SourceError String := do
  return (Artifact.bundle (← generateFromText text)).compactText

end EntityForge
