import EntityForge.Delivery
import EntityForge.Generation
import EntityForge.Log

/-!
What each step of a run has to tell.

The events of a step are a function of what goes into it. A step that fails has told everything up to
the point where it failed.
-/

namespace EntityForge.Log

def source (part : String) : String := "modelgen::" ++ part

def emptyBlockIgnored (owner : String) : Event :=
  ⟨.warn, source "ir", "empty relationships block for unknown model ignored", [("owner", owner)]⟩

/-- Of blocks that are attached one after the other. -/
def ofAttaching : List Entity → List (String × RelationBlock) → List Event
  | entities, [] =>
    [⟨.debug, source "ir", "schema loaded", [("entities", toString entities.length)]⟩]
  | entities, (owner, block) :: blocks =>
    match Schema.attach entities owner block with
    | .error _ => []
    | .ok attached =>
      let told :=
        if entities.any fun e => e.name == owner then [] else [emptyBlockIgnored owner]
      told ++ ofAttaching attached blocks

def ofLoading (document : Document) : List Event :=
  match Schema.loadModels document with
  | .error _ => []
  | .ok entities => ofAttaching entities document.relationships

def loaded (document : Path) (schema : Schema) : Event :=
  ⟨.info, "modelgen", "loaded " ++ document.text,
    [("entities", toString schema.entities.length)]⟩

/-- Told of a relation that names a join entity and does not go through it. -/
def joinIgnored (owner : Entity) (relation : Relation) : List Event :=
  match relation.through, relation.kind.isMany with
  | some through, false =>
    [⟨.warn, source "relations",
      "`through` only applies to many-relations; resolving directly",
      [("entity", owner.name), ("alias", relation.name), ("through", through)]⟩]
  | _, _ => []

def ofRelations (schema : Schema) : List (Entity × Relation) → List Event
  | [] => []
  | (owner, relation) :: rest =>
    match schema.entity? relation.target, Accessor.resolve schema owner relation with
    | none, _ => []
    | some _, .error _ => joinIgnored owner relation
    | some _, .ok _ => joinIgnored owner relation ++ ofRelations schema rest

def ofResolving (schema : Schema) : List Event :=
  ofRelations schema (schema.entities.flatMap fun e => e.relations.map fun r => (e, r))

def madeArtifact (artifact : Artifact) : Event :=
  ⟨.debug, source "assemble", "artifact",
    [("path", artifact.path.text), ("policy", artifact.policy.name)]⟩

def ofSubject (layout : Layout) (subject : Subject) : List Event :=
  ⟨.info, source "assemble", "generating",
    [("entity", subject.entity.name), ("fields", toString subject.entity.fields.length),
     ("relations", toString subject.accessors.length),
     ("owner", Text.quoted subject.owner.name)]⟩
    :: ⟨.debug, source "merge", "merged openapi fragment", [("entity", subject.entity.name)]⟩
    :: (Artifact.scaffold layout subject).map madeArtifact

def ofGenerating (schema : Schema) (policy : OwnerPolicy) (layout : Layout) : List Event :=
  match schema.subjects policy, schema.generate policy layout with
  | .ok subjects, .ok artifacts =>
    let scaffolds := subjects.flatMap (Artifact.scaffold layout)
    ofResolving schema ++ subjects.flatMap (ofSubject layout)
      ++ (artifacts.drop scaffolds.length).map madeArtifact
      ++ [⟨.info, source "assemble", "generation complete",
        [("entities", toString schema.entities.length),
         ("artifacts", toString artifacts.length)]⟩]
  | _, _ => ofResolving schema

def ofOutcome (destination : Destination) (artifact : Artifact) (outcome : Outcome) : Event :=
  let path := (destination.root.join artifact.path).text
  match outcome with
  | .planned =>
    ⟨.info, source "writer", "would write", [("path", path), ("policy", artifact.policy.name)]⟩
  | .skipped => ⟨.info, source "writer", "exists, skipped", [("path", path)]⟩
  | .written =>
    ⟨.debug, source "writer", "written",
      [("path", path), ("bytes", toString artifact.contents.utf8ByteSize)]⟩

def ofDelivery (destination : Destination) (report : DeliveryReport) : List Event :=
  let count (outcome : Outcome) : String :=
    toString (report.delivered.countP fun d => d.2 = outcome)
  report.delivered.map (fun (artifact, outcome) => ofOutcome destination artifact outcome)
    ++ (if report.failure?.isSome then []
      else [⟨.info, source "writer", "output complete",
        [("written", count .written), ("skipped", count .skipped),
         ("dry_run", toString destination.dryRun)]⟩])

end EntityForge.Log
