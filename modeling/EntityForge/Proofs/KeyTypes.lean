import EntityForge.Proofs.PublishedApi
import EntityForge.Proofs.SearchKeys

/-!
The type that the files of an entity give its key.

The OpenAPI text takes it from the column of the key. The service and the guard write out their own, which is a number
whatever the column is; so they agree with the OpenAPI text on the keys that are numbers there, and on no others. Both
files are read from the start, since any name may come to stand in them. Main statements: `OpenApi.keyTyped_fragment`,
`Resource.Service.takesKeys_iff`, `Resource.Guard.passesKeys_iff` and `key_types_agree_iff`.
-/

namespace EntityForge

namespace TypeScript.Script

/-- What of a file stands before its first item. -/
def opening (script : Script) : String := String.join (script.imports.map Import.text) ++ "\n"

theorem text_pair {script : Script} {first second : Declaration} (himports : script.imports.isEmpty = false)
    (hitems : script.items = spaced [.declaration first, .declaration second]) :
    script.text = script.opening ++ first.text ++ "\n" ++ second.text := by
  have hjoin : String.join (script.items.map Item.text) = first.text ++ ("\n" ++ second.text) := by
    rw [hitems]
    simp [spaced, blankLine, Item.text, String.join_cons]
  rw [text, himports, hjoin, opening]
  simp only [Bool.false_eq_true, if_false, String.append_assoc]

end TypeScript.Script

theorem SurfaceType.eq_of_name_append {type other : SurfaceType} {rest more : String}
    (h : type.name ++ rest = other.name ++ more) : type = other := by
  cases type <;> cases other
  case string.string | number.number | boolean.boolean => rfl
  all_goals simp [SurfaceType.name, ← String.toList_inj] at h

namespace Resource

namespace Service

/-- The signatures of the methods of a service, if keys are of some type. -/
def signatures (model key type : String) : List String := [
  "get" ++ model ++ "ById(" ++ key ++ ": " ++ type ++ "): Promise<" ++ model ++ "Entity>",
  "get" ++ model ++ "BySearch(query: Search" ++ model ++ "Dto): Promise<" ++ model ++ "Entity[]>",
  "create" ++ model ++ "(auth_id: number, dto: Create" ++ model ++ "Dto): Promise<" ++ model ++ "Entity>",
  "update" ++ model ++ "(auth_id: number, " ++ key ++ ": " ++ type ++ ", dto: Update" ++ model
    ++ "Dto): Promise<\x7b rows: number \x7d>",
  "patch" ++ model ++ "(auth_id: number, " ++ key ++ ": " ++ type ++ ", dto: Update" ++ model
    ++ "Dto): Promise<\x7b rows: number \x7d>",
  "delete" ++ model ++ "(auth_id: number, " ++ key ++ ": " ++ type ++ "): Promise<\x7b rows: number \x7d>"]

theorem map_signature_methods (s : Service) :
    s.methods.map (fun method => method.signature.text) = signatures s.names.model s.key s.keyType.name := by
  simp [methods, signatures, TypeScript.Signature.text, TypeScript.Parameter.text, keyParameter, userParameter,
    dtoParameter, Dto.nameOf, DtoKind.word, entityPromise, listPromise, countPromise, toString, ← String.toList_inj]

/-- An interface with these signatures. -/
def interfaceText (model : String) (signatures : List String) : String :=
  "export interface I" ++ model ++ "Service \x7b\n"
    ++ String.join (signatures.map fun signature => "  " ++ signature ++ ";\n") ++ "\x7d\n"

/-- A class with these methods, each of them a signature and a body. -/
def classText (model : String) (methods : List (String × String)) : String :=
  "@Service()\nexport class " ++ model ++ "Service implements I" ++ model ++ "Service \x7b\n"
    ++ "  constructor(private repositoryService: RepositoryService) \x7b\x7d\n"
    ++ String.join (methods.map fun (signature, body) => "\n  async " ++ signature ++ " \x7b\n" ++ body ++ "  \x7d\n")
    ++ "\x7d\n"

/-- The service of an entity takes keys of a type: so do all methods that have a key, in its interface and in its
class. -/
def TakesKeys (subject : Subject) (type : SurfaceType) : Prop :=
  ∃ methods : List (String × String),
    methods.map Prod.fst = signatures subject.names.model subject.entity.primaryKey type.name ∧
    Surface.service.text subject = (Service.of subject).script.opening
      ++ interfaceText subject.names.model (methods.map Prod.fst) ++ "\n" ++ classText subject.names.model methods

variable {subject : Subject} {type : SurfaceType}

/-- The lines that are the body of an interface. -/
theorem lines_interface (signatures : List String) :
    TypeScript.lines ([" \x7b"] ++ signatures.map (fun signature => "  " ++ signature ++ ";") ++ ["\x7d"]) =
      " \x7b\n" ++ String.join (signatures.map fun signature => "  " ++ signature ++ ";\n") ++ "\x7d\n" := by
  have hline (signature : String) : "  " ++ signature ++ ";" ++ "\n" = "  " ++ signature ++ ";\n" :=
    String.append_assoc ..
  rw [TypeScript.lines, List.map_append, List.map_append, String.join_append, String.join_append, List.map_map,
    Function.comp_def]
  simp only [hline]
  rfl

theorem text_interface (s : Service) : s.interface.text =
    interfaceText s.names.model (s.methods.map fun method => method.signature.text) := by
  have hopen : "export interface I" = "" ++ "export " ++ "interface" ++ " " ++ "I" := rfl
  have hname : "Service \x7b\n" = "Service" ++ " \x7b\n" := rfl
  have htext : s.interface.text = "" ++ "export " ++ "interface" ++ " " ++ ("I" ++ s.names.model ++ "Service")
      ++ TypeScript.lines ([" \x7b"] ++ (s.methods.map fun method => method.signature.text).map
        (fun signature => "  " ++ signature ++ ";") ++ ["\x7d"]) := by
    rw [List.map_map]
    rfl
  unfold interfaceText
  rw [htext, lines_interface, hopen, hname]
  simp only [String.append_assoc]

theorem text_method (method : Method) : method.text =
    "\n  async " ++ method.signature.text ++ " \x7b\n" ++ TypeScript.lines method.body ++ "  \x7d\n" := by
  have hopen : "\n  async " = "" ++ "\n" ++ "  async " := rfl
  have hbrace : " \x7b\n" = " \x7b" ++ "\n" := rfl
  have htext : method.text =
      TypeScript.lines (["", "  async " ++ method.signature.text ++ " \x7b"] ++ method.body ++ ["  \x7d"]) := rfl
  rw [htext, TypeScript.lines, TypeScript.lines, List.map_append, List.map_append, String.join_append,
    String.join_append, hopen, hbrace]
  simp only [List.map_cons, List.map_nil, String.join_cons, String.join_nil, String.append_assoc]
  rfl

theorem text_implementation (s : Service) : s.implementation.text =
    classText s.names.model (s.methods.map fun method => (method.signature.text, TypeScript.lines method.body)) := by
  have hopen : "@Service()\nexport class " = "@Service()\n" ++ "export " ++ "class" ++ " " := rfl
  have hname : "Service implements I" = "Service" ++ " implements " ++ "I" := rfl
  have hbrace : "Service \x7b\n" = "Service" ++ " \x7b\n" := rfl
  have htext : s.implementation.text = "@Service()\n" ++ "export " ++ "class" ++ " " ++ (s.names.model ++ "Service")
      ++ (" implements " ++ ("I" ++ s.names.model ++ "Service") ++ " \x7b\n"
        ++ "  constructor(private repositoryService: RepositoryService) \x7b\x7d\n"
        ++ String.join (s.methods.map Method.text) ++ "\x7d\n") := rfl
  unfold classText
  rw [htext, hopen, hname, hbrace, List.map_map, List.map_congr_left fun method _ => text_method method]
  simp only [Function.comp_def, String.append_assoc]

theorem takesKeys_number (subject : Subject) : TakesKeys subject .number := by
  have hsignatures : ((Service.of subject).methods.map fun method =>
      (method.signature.text, TypeScript.lines method.body)).map Prod.fst =
        (Service.of subject).methods.map fun method => method.signature.text := by
    rw [List.map_map]
    rfl
  refine ⟨_, hsignatures.trans (map_signature_methods _), ?_⟩
  rw [hsignatures]
  refine (TypeScript.Script.text_pair rfl rfl).trans ?_
  rw [text_interface, text_implementation]
  rfl

/-- The file up to the first key of a method, so that what follows is the type of it. -/
theorem TakesKeys.text_eq (h : TakesKeys subject type) : ∃ rest, Surface.service.text subject =
    (Service.of subject).script.opening ++ ("export interface I" ++ subject.names.model ++ "Service \x7b\n"
      ++ ("  " ++ ("get" ++ subject.names.model ++ "ById(" ++ subject.entity.primaryKey ++ ": ")))
      ++ (type.name ++ rest) := by
  obtain ⟨methods, hsignatures, htext⟩ := h
  rw [htext, hsignatures]
  unfold interfaceText signatures
  simp only [List.map_cons, String.join_cons, String.append_assoc]
  exact ⟨_, rfl⟩

/-- Whatever the key of an entity is, its service takes numbers. -/
theorem takesKeys_iff : TakesKeys subject type ↔ type = .number := by
  constructor
  · intro h
    obtain ⟨rest, hrest⟩ := h.text_eq
    obtain ⟨more, hmore⟩ := (takesKeys_number subject).text_eq
    rw [hrest, String.append_right_inj] at hmore
    exact SurfaceType.eq_of_name_append hmore
  · rintro rfl
    exact takesKeys_number subject

end Service

namespace Guard

/-- The file of the guards up to the query of the first one, where keys are read in a way. -/
def textWith (subject : Subject) (reading : KeyReading) (rest : String) : String :=
  (Guard.of subject).script.opening
    ++ ("export async function " ++ subject.names.model
      ++ "Exists(request: Request, response: Response, next: NextFunction) \x7b\n"
      ++ "  const " ++ subject.entity.primaryKey ++ " = ")
    ++ (reading.expression ++ (";\n" ++ "  const " ++ subject.names.binding ++ " = await Container.get("
      ++ subject.names.token ++ ").findOne(\x7b where: \x7b " ++ subject.entity.primaryKey ++ " \x7d \x7d);\n" ++ rest))

/-- The guards of an entity pass keys of a type to `findOne`, as they read them by an expression of this type. -/
def PassesKeys (subject : Subject) (type : SurfaceType) : Prop :=
  ∃ reading rest, reading.type = type ∧ Surface.guard.text subject = textWith subject reading rest

variable {subject : Subject} {type : SurfaceType}

theorem text_existence (g : Guard) : ∃ rest, g.existence.text =
    "export async function " ++ g.names.model
      ++ "Exists(request: Request, response: Response, next: NextFunction) \x7b\n"
      ++ "  const " ++ g.key ++ " = " ++ (g.keyReading.expression ++ (";\n" ++ "  const " ++ g.names.binding
        ++ " = await Container.get(" ++ g.names.token ++ ").findOne(\x7b where: \x7b " ++ g.key ++ " \x7d \x7d);\n"
        ++ rest)) := by
  have hopen : "export async function " = "" ++ "export " ++ "async function" ++ " " := rfl
  have hname : "Exists(request: Request, response: Response, next: NextFunction) \x7b\n" =
      "Exists" ++ (parameters ++ " \x7b" ++ "\n") := rfl
  have hassign : ";\n" = ";" ++ "\n" := rfl
  have hquery : " \x7d \x7d);\n" = " \x7d \x7d);" ++ "\n" := rfl
  rw [hopen, hname, hassign, hquery]
  simp only [TypeScript.Declaration.text, existence, existsName, TypeScript.Keyword.text, TypeScript.lines,
    List.map_cons, String.join_cons, String.append_assoc, toString]
  exact ⟨_, rfl⟩

theorem text_eq_textWith (subject : Subject) : ∃ rest, Surface.guard.text subject = textWith subject .integer rest := by
  obtain ⟨rest, hrest⟩ := text_existence (Guard.of subject)
  refine ⟨rest ++ ("\n" ++ (Guard.of subject).ownership.text), (TypeScript.Script.text_pair rfl rfl).trans ?_⟩
  rw [hrest]
  unfold textWith
  simp only [String.append_assoc]
  rfl

/-- Whatever the key of an entity is, its guards pass numbers. -/
theorem passesKeys_iff : PassesKeys subject type ↔ type = .number := by
  obtain ⟨more, hmore⟩ := text_eq_textWith subject
  constructor
  · rintro ⟨reading, rest, htype, hrest⟩
    rw [hmore] at hrest
    unfold textWith at hrest
    rw [String.append_right_inj] at hrest
    cases reading with
    | integer => exact htype.symm
    | text => simp [KeyReading.expression, ← String.toList_inj] at hrest
  · rintro rfl
    exact ⟨.integer, more, rfl, hmore⟩

end Guard

end Resource

namespace OpenApi

/-- The operations on one row all have the key for their only parameter, in the path and with a type. -/
def KeyTyped (document : Json) (entity : Entity) (type : String) : Prop :=
  ∀ verb ∈ [Verb.get, .put, .patch, .delete], ∃ parameter,
    document.member? ["paths", "/" ++ entity.directory ++ "/\x7bid\x7d", verb.name, "parameters"] =
      some (.array [parameter]) ∧
    parameter.get? "name" = some (.string "id") ∧ parameter.get? "in" = some (.string "path") ∧
      parameter.member? ["schema", "type"] = some (.string type)

theorem keyTyped_fragment (entity : Entity) :
    KeyTyped (fragment entity) entity (Parameter.ofKey entity).schema.type.name := by
  have hsingle : single (.ofModel entity.name) entity ∈ pathItems entity :=
    List.mem_cons_of_mem _ (List.mem_cons_of_mem _ List.mem_cons_self)
  intro verb hverb
  refine ⟨(Parameter.ofKey entity).toJson, (member?_path hsingle [verb.name, "parameters"]).trans ?_, ?_, ?_, ?_⟩
  · simp only [List.mem_cons, List.not_mem_nil, or_false] at hverb
    rcases hverb with rfl | rfl | rfl | rfl <;> rfl
  · rfl
  · rfl
  · rfl

theorem ValueType.name_isNumeric_iff (type : ValueType) :
    (type.name = "integer" ∨ type.name = "number") ↔ type = .integer ∨ type = .number := by
  cases type <;> decide

theorem valueType_isNumeric_iff (field : Field) : (valueType field = .integer ∨ valueType field = .number) ↔
    field.dataType = .integer ∨ field.dataType = .float := by
  unfold valueType
  cases field.dataType <;> decide

/-- The key is a number exactly if its column is. -/
theorem ofKey_isNumeric_iff (entity : Entity) :
    ((Parameter.ofKey entity).schema.type = .integer ∨ (Parameter.ofKey entity).schema.type = .number) ↔
      ∀ field, entity.field? entity.primaryKey = some field → field.dataType = .integer ∨ field.dataType = .float := by
  unfold Parameter.ofKey
  cases entity.field? entity.primaryKey with
  | none => exact iff_of_true (.inl rfl) fun field hfield => absurd hfield (Option.some_ne_none field).symm
  | some field =>
    refine (valueType_isNumeric_iff field).trans ⟨?_, fun h => h field rfl⟩
    rintro hnumeric other hother
    obtain rfl := Option.some.inj hother
    exact hnumeric

end OpenApi

/-- The type by which keys are handled is the one that a document gives them. -/
structure SurfaceType.Fits (handled : SurfaceType) (type : String) : Prop where
  number : handled = .number ↔ type = "integer" ∨ type = "number"
  string : type = "string" → handled = .string

theorem SurfaceType.fits_number_iff {type : String} :
    SurfaceType.number.Fits type ↔ type = "integer" ∨ type = "number" := by
  constructor
  · intro h
    exact h.number.1 rfl
  · intro htype
    refine ⟨iff_of_true rfl htype, ?_⟩
    rintro rfl
    exact absurd htype (by decide)

/-- The service and the guards of an entity always handle its key as a number. This is what its OpenAPI text says of
the key if no field is the key, or an integer or a float is, and otherwise it is not. -/
theorem key_types_agree_iff (subject : Subject) :
    ∃ document type, Json.parse (Surface.openApi.text subject) = .ok document ∧
      OpenApi.KeyTyped document subject.entity type ∧
      (∀ handled, Resource.Service.TakesKeys subject handled ↔ handled = .number) ∧
      (∀ handled, Resource.Guard.PassesKeys subject handled ↔ handled = .number) ∧
      ((∃ handled, Resource.Service.TakesKeys subject handled ∧ Resource.Guard.PassesKeys subject handled ∧
          handled.Fits type) ↔
        ∀ field, subject.entity.field? subject.entity.primaryKey = some field →
          field.dataType = .integer ∨ field.dataType = .float) := by
  refine ⟨_, _, PublishedApi.parse_openApi subject, OpenApi.keyTyped_fragment subject.entity,
    fun _ => Resource.Service.takesKeys_iff, fun _ => Resource.Guard.passesKeys_iff, ?_⟩
  rw [← OpenApi.ofKey_isNumeric_iff, ← OpenApi.ValueType.name_isNumeric_iff, ← SurfaceType.fits_number_iff]
  constructor
  · rintro ⟨handled, htakes, -, hfits⟩
    obtain rfl := Resource.Service.takesKeys_iff.1 htakes
    exact hfits
  · intro hfits
    exact ⟨.number, Resource.Service.takesKeys_iff.2 rfl, Resource.Guard.passesKeys_iff.2 rfl, hfits⟩

/-- A document with a model whose key is a text. -/
def pages.lines : List String := [
  "\x7b\"models\": \x7b\"Page\": \x7b\"tableName\": \"pages\", ",
  "\"fields\": \x7b\"slug\": \x7b\"dataType\": \"string\", \"primaryKey\": true\x7d\x7d\x7d\x7d\x7d"]

def pages.text : String := String.join pages.lines

def pages : Schema where
  entities := [
    { name := "Page"
      tableName := "pages"
      fields := [⟨"slug", .string, false, true, false, none, none, none, none⟩]
      indexes := []
      relations := [] }]
  api := .standard

theorem pages_ofText : Schema.ofText pages.text = .ok pages := by
  rw [Schema.ofText, Document.parse, Json.readText, Json.Node.ofText, Json.lex, pages.text, String.toList_join]
  decide +kernel

def pages.subject : Subject := .of .standard ⟨pages.entities[0], []⟩

/-- The key of a page is a text in its OpenAPI text, and a number in its service and its guards. -/
theorem key_types_differ_for_pages :
    Schema.ofText pages.text = .ok pages ∧ Schema.subjects pages .standard = .ok [pages.subject] ∧
      (∃ document, Json.parse (Surface.openApi.text pages.subject) = .ok document ∧
        OpenApi.KeyTyped document pages.subject.entity "string") ∧
      Resource.Service.TakesKeys pages.subject .number ∧ Resource.Guard.PassesKeys pages.subject .number ∧
      ¬∃ handled, Resource.Service.TakesKeys pages.subject handled ∧ Resource.Guard.PassesKeys pages.subject handled ∧
        handled.Fits "string" := by
  refine ⟨pages_ofText, by decide, ⟨_, PublishedApi.parse_openApi _, OpenApi.keyTyped_fragment _⟩,
    Resource.Service.takesKeys_iff.2 rfl, Resource.Guard.passesKeys_iff.2 rfl, ?_⟩
  rintro ⟨handled, htakes, -, hfits⟩
  obtain rfl := Resource.Service.takesKeys_iff.1 htakes
  cases hfits.string rfl

end EntityForge
