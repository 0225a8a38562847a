import EntityForge.Artifact
import EntityForge.Log
import EntityForge.Schema.Owner

/-!
The command line: one document, options that take a value, and switches.

Arguments are read from left to right. A value is only looked at when the argument after it is read, so
an argument that nobody knows is reported before a value in front of it that is not allowed.
-/

namespace EntityForge

/-- What a value on the command line is for. -/
inductive Slot where
  | document
  | outDir
  | resourcesDir
  | referenceDir
  | generatedDir
  | ownerModel
  | ownerField
  deriving Repr, DecidableEq

namespace Slot

def name : Slot → String
  | .document => "<DOCUMENT>"
  | .outDir => "--out-dir <OUT_DIR>"
  | .resourcesDir => "--resources-dir <RESOURCES_DIR>"
  | .referenceDir => "--reference-dir <REFERENCE_DIR>"
  | .generatedDir => "--generated-dir <GENERATED_DIR>"
  | .ownerModel => "--owner-model <OWNER_MODEL>"
  | .ownerField => "--owner-field <OWNER_FIELD>"

/-- A path may not be empty; the name of a model or of a field may. -/
def isPath : Slot → Bool
  | .ownerModel | .ownerField => false
  | _ => true

end Slot

inductive Switch where
  | dryRun
  | verbose
  | help
  | version
  deriving Repr, DecidableEq

def Switch.name : Switch → String
  | .dryRun => "--dry-run"
  | .verbose => "--verbose"
  | .help => "--help"
  | .version => "--version"

inductive Flag where
  | slot (s : Slot)
  | switch (s : Switch)
  deriving Repr, DecidableEq

namespace Flag

def ofName? : String → Option Flag
  | "out-dir" => some (.slot .outDir)
  | "resources-dir" => some (.slot .resourcesDir)
  | "reference-dir" => some (.slot .referenceDir)
  | "generated-dir" => some (.slot .generatedDir)
  | "owner-model" => some (.slot .ownerModel)
  | "owner-field" => some (.slot .ownerField)
  | "dry-run" => some (.switch .dryRun)
  | "verbose" => some (.switch .verbose)
  | "help" => some (.switch .help)
  | "version" => some (.switch .version)
  | _ => none

def ofLetter? : Char → Option Flag
  | 'o' => some (.slot .outDir)
  | 'v' => some (.switch .verbose)
  | 'h' => some (.switch .help)
  | 'V' => some (.switch .version)
  | _ => none

end Flag

/-- Why a command line does not lead to a run. -/
inductive UsageStop where
  | help
  | version
  | missingDocument
  | unknownArgument (argument : String)
  | missingValue (slot : Slot)
  | emptyPath (slot : Slot)
  | unneededValue (switch : Switch)
  | repeatedSlot (slot : Slot)
  | repeatedSwitch (switch : Switch)
  deriving Repr, DecidableEq

/-- What has been read of a command line. -/
structure Arguments where
  values : List (Slot × String)
  switches : List Switch
  /-- The value that was read last, or an option that still waits for one. -/
  pending : Option (Slot × Option String)
  /-- Set by `--`: from here on nothing is an option. -/
  onlyValues : Bool
  deriving Repr, DecidableEq

namespace Arguments

abbrev Reading := Except UsageStop Arguments

def start : Arguments := ⟨[], [], none, false⟩

def value? (a : Arguments) (slot : Slot) : Option String :=
  (a.values.find? fun v => v.1 = slot).map Prod.snd

def accept (a : Arguments) (slot : Slot) (value : String) : Reading :=
  if (a.value? slot).isSome then .error (.repeatedSlot slot)
  else if slot.isPath && value.isEmpty then .error (.emptyPath slot)
  else .ok { a with values := a.values ++ [(slot, value)] }

/-- Takes up the value that was read last. -/
def settle (a : Arguments) : Reading :=
  match a.pending with
  | none => .ok a
  | some (slot, none) => .error (.missingValue slot)
  | some (slot, some value) => { a with pending := none }.accept slot value

def give (a : Arguments) (slot : Slot) (value : String) : Reading := do
  (← a.settle).accept slot value

def await (a : Arguments) (slot : Slot) : Reading := do
  return { ← a.settle with pending := some (slot, none) }

def turnOn (a : Arguments) (switch : Switch) : Reading := do
  let a ← a.settle
  match switch with
  | .help => .error .help
  | .version => .error .version
  | _ =>
    if a.switches.contains switch then .error (.repeatedSwitch switch)
    else return { a with switches := a.switches ++ [switch] }

/-- A flag by its name, perhaps with a value after an equals sign. -/
def readName (a : Arguments) (text : List Char) : Reading :=
  let name := String.ofList (text.takeWhile (· ≠ '='))
  match Flag.ofName? name, text.dropWhile (· ≠ '=') with
  | none, _ => .error (.unknownArgument ("--" ++ name))
  | some (.slot slot), [] => a.await slot
  | some (.slot slot), _ :: value => a.give slot (String.ofList value)
  | some (.switch switch), [] => a.turnOn switch
  | some (.switch switch), _ :: _ => .error (.unneededValue switch)

/-- Flags by their letters. The rest after one that takes a value is its value. -/
def readLetters (a : Arguments) : List Char → Reading
  | [] => .ok a
  | c :: rest =>
    match Flag.ofLetter? c with
    | none => .error (.unknownArgument (String.ofList ['-', c]))
    | some (.switch switch) => do readLetters (← a.turnOn switch) rest
    | some (.slot slot) =>
      match rest with
      | [] => a.await slot
      | '=' :: value => a.give slot (String.ofList value)
      | value => a.give slot (String.ofList value)

def hasDocument (a : Arguments) : Bool :=
  (a.value? .document).isSome || a.pending.any fun p => p.1 = .document

/-- A document, where no option waits for a value. There is only one. -/
def readDocument (a : Arguments) (text : String) : Reading :=
  if a.hasDocument then .error (.unknownArgument text)
  else do return { ← a.settle with pending := some (.document, some text) }

def readValue (a : Arguments) (text : String) : Reading :=
  match a.pending with
  | some (slot, none) => .ok { a with pending := some (slot, some text) }
  | _ => a.readDocument text

def read (a : Arguments) (argument : String) : Reading :=
  if a.onlyValues then a.readDocument argument
  else
    match argument.toList with
    | ['-', '-'] => .ok { a with onlyValues := true }
    | '-' :: '-' :: text => a.readName text
    | '-' :: c :: text => a.readLetters (c :: text)
    | _ => a.readValue argument

end Arguments

/-- All that a run is told. -/
structure CommandLine where
  document : Path
  outDir : Path
  layout : Layout
  policy : OwnerPolicy
  dryRun : Bool
  verbose : Bool
  deriving Repr, DecidableEq

namespace CommandLine

def ofArguments (a : Arguments) : Except UsageStop CommandLine := do
  let a ← a.settle
  let path (slot : Slot) (standard : Path) : Path := ((a.value? slot).map Path.mk).getD standard
  match a.value? .document with
  | none => .error .missingDocument
  | some document =>
    return {
      document := ⟨document⟩
      outDir := path .outDir ⟨"."⟩
      layout := ⟨path .resourcesDir Layout.standard.resources,
        path .referenceDir Layout.standard.reference, path .generatedDir Layout.standard.generated⟩
      policy := ⟨(a.value? .ownerModel).getD OwnerPolicy.standard.ownerModel,
        (a.value? .ownerField).getD OwnerPolicy.standard.defaultField⟩
      dryRun := a.switches.contains .dryRun
      verbose := a.switches.contains .verbose }

def parse (arguments : List String) : Except UsageStop CommandLine := do
  ofArguments (← arguments.foldlM Arguments.read Arguments.start)

def logLevel (c : CommandLine) : Log.Level := if c.verbose then .debug else .info

end CommandLine

end EntityForge
