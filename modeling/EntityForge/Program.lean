import EntityForge.CommandLine
import EntityForge.Log.Events
import EntityForge.Log.Setting

/-!
A whole run of the program: the command line, one document, everything that is generated from it, and
what is left behind on the terminal.
-/

namespace EntityForge

inductive RunFailure where
  | unreadable (document : Path) (fault : FileFault)
  | noJson (document : Path) (fault : Json.Fault)
  | noSchema (document : Path) (e : LoadError)
  | generation (e : GenerationError)
  | delivery (outDir : Path) (e : DeliveryError)
  deriving Repr, DecidableEq

namespace RunFailure

def heading : RunFailure → String
  | unreadable document _ => "Failed to read " ++ document.text
  | noJson document _ | noSchema document _ => "Invalid model document " ++ document.text
  | generation _ => "Generation failed"
  | delivery outDir _ => "Failed to write output under " ++ outDir.text

/-- What lies behind a failure, the nearest cause first. -/
def causes : RunFailure → List String
  | unreadable _ fault => [fault.text]
  | noJson _ fault => ["Document error: " ++ fault.message]
  | noSchema _ e => [e.message]
  | generation (.unresolved e) => [e.message]
  | generation (.unreadable fault) => ["Document error: " ++ fault.message]
  | delivery _ e => [e.message, e.fault.text]

/-- A cause of several lines keeps them all at the same distance from the margin. -/
def indented (margin text : String) : String :=
  String.join ((text.splitOn "\n").intersperse ("\n" ++ margin))

def causesText : List String → String
  | [cause] => "    " ++ indented "    " cause ++ "\n"
  | causes =>
    String.join (causes.mapIdx fun i cause =>
      "    " ++ toString i ++ ": " ++ indented "       " cause ++ "\n")

def text (failure : RunFailure) : String :=
  "Error: " ++ failure.heading ++ "\n\nCaused by:\n" ++ causesText failure.causes

end RunFailure

namespace UsageStop

def helpText : String :=
  "Generate entity contracts, ORM models, GraphQL, OpenAPI and REST scaffolds from a JSON model document

Usage: modelgen [OPTIONS] <DOCUMENT>

Arguments:
  <DOCUMENT>  Model document (JSON)

Options:
  -o, --out-dir <OUT_DIR>              Output root [default: .]
      --resources-dir <RESOURCES_DIR>  Hand-editable scaffold tree, relative to the output root [default: resources]
      --reference-dir <REFERENCE_DIR>  Always-overwritten copy of the scaffold tree [default: generated/resources]
      --generated-dir <GENERATED_DIR>  Aggregate files [default: generated]
      --owner-model <OWNER_MODEL>      Entity whose references mark a field as the owner field [default: User]
      --owner-field <OWNER_FIELD>      Owner field used when no field references the owner model [default: owner_id]
      --dry-run                        Compute and log every write without touching the disk
  -v, --verbose                        Debug logging
  -h, --help                           Print help
  -V, --version                        Print version"

def complaint : UsageStop → String
  | .help => "help was asked for"
  | .version => "the version was asked for"
  | .missingDocument => "the following required arguments were not provided:\n  <DOCUMENT>"
  | .unknownArgument argument => "unexpected argument '" ++ argument ++ "' found"
  | .missingValue slot | .emptyPath slot =>
    "a value is required for '" ++ slot.name ++ "' but none was supplied"
  | .unneededValue switch =>
    "unexpected value for '" ++ switch.name ++ "' found; no more were expected"
  | .repeatedSlot slot => "the argument '" ++ slot.name ++ "' cannot be used multiple times"
  | .repeatedSwitch switch =>
    "the argument '" ++ switch.name ++ "' cannot be used multiple times"

end UsageStop

inductive Problem where
  | usage (stop : UsageStop)
  | failure (f : RunFailure)
  deriving Repr, DecidableEq

/-- How a run ends: with the lines shown on the way, and with a problem if something went wrong. -/
structure Finish where
  output : List String
  problem? : Option Problem
  deriving Repr, DecidableEq

namespace Finish

def code (f : Finish) : UInt32 :=
  match f.problem? with
  | none => 0
  | some (.failure _) => 1
  | some (.usage _) => 2

def complaint (f : Finish) : String :=
  match f.problem? with
  | none => ""
  | some (.failure failure) => failure.text
  | some (.usage stop) =>
    "error: " ++ stop.complaint ++ "\n\nFor more information, try '--help'.\n"

/-- Asking for help or for the version is no mistake. -/
def ofUsage : UsageStop → Finish
  | .help => ⟨UsageStop.helpText.splitOn "\n", none⟩
  | .version => ⟨["modelgen 0.1.0"], none⟩
  | stop => ⟨[], some (.usage stop)⟩

/-- The events that a filter shows, and the failure that came after them. -/
def ofRun (filter : Log.Filter) (told : List Log.Event) (failure? : Option RunFailure) : Finish :=
  ⟨(told.filter filter.shows).map Log.Event.line, failure?.map .failure⟩

end Finish

namespace Program

/-- What is to be written for a document, and what is told on the way there. -/
def plan (c : CommandLine) (text : String) :
    List Log.Event × Except RunFailure (List Artifact) :=
  match Document.parse text with
  | .error fault => ([], .error (.noJson c.document fault))
  | .ok document =>
    match Schema.load document with
    | .error e => (Log.ofLoading document, .error (.noSchema c.document e))
    | .ok schema =>
      (Log.ofLoading document
          ++ Log.loaded c.document schema :: Log.ofGenerating schema c.policy c.layout,
        (schema.generate c.policy c.layout).mapError .generation)

def destination (c : CommandLine) : Destination := ⟨c.outDir, c.dryRun⟩

/-- The events of a run and its failure, if any. -/
def perform (c : CommandLine) : Session (List Log.Event × Option RunFailure) := do
  match ← Session.send (.read c.document) with
  | .error fault => return ([], some (.unreadable c.document fault))
  | .ok text =>
    match plan c text with
    | (told, .error failure) => return (told, some failure)
    | (told, .ok artifacts) =>
      let report ← (destination c).writeAll artifacts
      return (told ++ Log.ofDelivery (destination c) report,
        report.failure?.map (.delivery c.outDir))

/-- A run with the given arguments; `setting` is what the environment says about logging. -/
def run (setting : Option String) (arguments : List String) : Session Finish :=
  match CommandLine.parse arguments with
  | .error stop => return .ofUsage stop
  | .ok c => do
    let (told, failure?) ← perform c
    return .ofRun (Log.Filter.ofSetting setting c.logLevel) told failure?

end Program

end EntityForge
