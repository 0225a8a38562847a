import EntityForge.Main
import EntityForge.Proofs.Refusal
import EntityForge.Proofs.Entries
import EntityForge.Proofs.Loading
import EntityForge.Proofs.Resolution
import EntityForge.Proofs.JoinColumn
import EntityForge.Proofs.Soundness
import EntityForge.Proofs.Emission
import EntityForge.Proofs.Path
import EntityForge.Proofs.Walk
import EntityForge.Proofs.Change
import EntityForge.Proofs.Delivery
import EntityForge.Proofs.Names
import EntityForge.Proofs.Placement
import EntityForge.Proofs.Rerun
import EntityForge.Proofs.Json.Lexeme
import EntityForge.Proofs.Json.RoundTrip
import EntityForge.Proofs.PublishedApi
import EntityForge.Proofs.Collision
import EntityForge.Proofs.Json.Merge
import EntityForge.Proofs.ManyToMany
import EntityForge.Proofs.ApiDocument
import EntityForge.Proofs.SharedPaths
import EntityForge.Proofs.Problems
import EntityForge.Proofs.WellFormed
import EntityForge.Proofs.Rules
import EntityForge.Proofs.Outcome
import EntityForge.Proofs.Containment
import EntityForge.Proofs.Independence
import EntityForge.Proofs.Effect
import EntityForge.Proofs.Completion
import EntityForge.Proofs.Bundle
import EntityForge.Proofs.Repository
import EntityForge.Proofs.Mirror
import EntityForge.Proofs.Comparison
import EntityForge.Proofs.ComparatorPattern
import EntityForge.Proofs.Imports
import EntityForge.Proofs.Modules
import EntityForge.Proofs.References
import EntityForge.Proofs.Interruption
import EntityForge.Proofs.GraphqlTypes
import EntityForge.Proofs.Lookup
import EntityForge.Proofs.Bindings
import EntityForge.Proofs.Plurals
import EntityForge.Proofs.Operations
import EntityForge.Proofs.OperationIds
import EntityForge.Proofs.SchemaReferences
import EntityForge.Proofs.SearchKeys
import EntityForge.Proofs.Nullability
import EntityForge.Proofs.DefinitionOrder
import EntityForge.Proofs.Assembly
import EntityForge.Proofs.ProgramRun
import EntityForge.Proofs.Json.MergePaths
import EntityForge.Proofs.Json.MergeOrder
import EntityForge.Proofs.MergeRun
import EntityForge.Proofs.Json.Source
import EntityForge.Proofs.Json.Records
import EntityForge.Proofs.DocumentOrder
import EntityForge.Proofs.Runs
import EntityForge.Proofs.EmissionOrder
import EntityForge.Proofs.Numerals
import EntityForge.Proofs.ComparisonFaults
import EntityForge.Proofs.ComparisonText
import EntityForge.Proofs.Lowering
import EntityForge.Proofs.Attempt
import EntityForge.Proofs.Leftovers
import EntityForge.Proofs.Atomicity
import EntityForge.Proofs.Standing
import EntityForge.Proofs.Repetition
import EntityForge.Proofs.Json.Whole
import EntityForge.Proofs.Json.Variation
import EntityForge.Proofs.DocumentVariants
import EntityForge.Proofs.Json.Literal
import EntityForge.Proofs.Defaults
import EntityForge.Proofs.KeyTypes
import EntityForge.Proofs.RequestExamples
