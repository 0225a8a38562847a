import EntityForge.Surface.Dto

/-!
The service of an entity: an interface of six methods and the class that implements it.

Writes are scoped to the user who asks for them only when a field of the entity is known to reference
the owner model.
-/

namespace EntityForge.Resource

open TypeScript

structure Method where
  signature : Signature
  body : List String
  deriving Repr, DecidableEq

def Method.text (m : Method) : String :=
  let signature := m.signature.text
  lines (["", s!"  async {signature} \x7b"] ++ m.body ++ ["  \x7d"])

structure Service where
  names : Names
  key : String
  keyType : SurfaceType
  owner : OwnerField
  deriving Repr, DecidableEq

namespace Service

def of (subject : Subject) : Service where
  names := subject.names
  key := subject.entity.primaryKey
  keyType := .number
  owner := subject.owner

def keyParameter (s : Service) : Parameter := ⟨s.key, s.keyType.name⟩

def userParameter : Parameter := ⟨"auth_id", "number"⟩

def dtoParameter (s : Service) (kind : DtoKind) : Parameter :=
  ⟨"dto", Dto.nameOf kind s.names.model⟩

def entityPromise (s : Service) : String := "Promise<" ++ s.names.model ++ "Entity>"

def listPromise (s : Service) : String := "Promise<" ++ s.names.model ++ "Entity[]>"

def countPromise : String := "Promise<\x7b rows: number \x7d>"

/-- The property of the repository service that holds this entity's repository. -/
def repositoryProperty (binding : String) : String := binding ++ "Repo"

def repository (s : Service) : String :=
  "this.repositoryService." ++ repositoryProperty s.names.binding

def ownerWhere (s : Service) : String :=
  if s.owner.isDetected then " " ++ s.owner.name ++ ": auth_id," else ""

def ownerAssignment (s : Service) : List String :=
  if s.owner.isDetected then ["      " ++ s.owner.name ++ ": auth_id,"] else []

def methods (s : Service) : List Method :=
  let m := s.names.model
  let repo := s.repository
  let pk := s.key
  let scope := s.ownerWhere
  let change (verb : String) : Signature :=
    ⟨verb ++ m, [userParameter, s.keyParameter, s.dtoParameter .update], countPromise⟩
  [{ signature := ⟨s!"get{m}ById", [s.keyParameter], s.entityPromise⟩
     body := [s!"    return {repo}.findOne(\x7b where: \x7b {pk} \x7d \x7d);"] },
   { signature :=
       ⟨s!"get{m}BySearch", [⟨"query", Dto.nameOf .search m⟩], s.listPromise⟩
     body := [
       "    const limit = query[\"limit\"] && INTEGER_REGEX.test(query[\"limit\"])",
       "      ? Math.min(100, parseInt(query[\"limit\"], 10))",
       "      : 10;",
       s!"    return {repo}.findAll(\x7b where: parseQueryParams(query), limit \x7d);"] },
   { signature := ⟨"create" ++ m, [userParameter, s.dtoParameter .create], s.entityPromise⟩
     body := [s!"    return {repo}.create(\x7b", "      ...dto,"] ++ s.ownerAssignment
       ++ ["    \x7d);"] },
   { signature := change "update"
     body := [
       s!"    const updates = await {repo}.update(dto, \x7b where: \x7b {pk},{scope} \x7d \x7d);",
       "    return \x7b rows: updates.rows \x7d;"] },
   { signature := change "patch"
     body := [
       "    const changes = Object.fromEntries(",
       "      Object.entries(dto).filter(([, value]) => value !== null && value !== undefined),",
       "    );",
       s!"    const updates = await {repo}.update(changes, \x7b where: \x7b {pk},{scope} \x7d \x7d);",
       "    return \x7b rows: updates.rows \x7d;"] },
   { signature := ⟨"delete" ++ m, [userParameter, s.keyParameter], countPromise⟩
     body := [
       s!"    const deletes = await {repo}.destroy(\x7b where: \x7b {pk},{scope} \x7d \x7d);",
       "    return \x7b rows: deletes.results \x7d;"] }]

def interfaceName (model : String) : String := "I" ++ model ++ "Service"

def className (model : String) : String := model ++ "Service"

def interface (s : Service) : Declaration where
  lead := ""
  keyword := .interface
  name := interfaceName s.names.model
  body := lines ([" \x7b"] ++ s.methods.map (fun m => "  " ++ m.signature.text ++ ";") ++ ["\x7d"])

def implementation (s : Service) : Declaration where
  lead := "@Service()\n"
  keyword := .classType
  name := className s.names.model
  body := " implements " ++ interfaceName s.names.model ++ " \x7b\n"
    ++ "  constructor(private repositoryService: RepositoryService) \x7b\x7d\n"
    ++ String.join (s.methods.map Method.text) ++ "\x7d\n"

def dtoImport (names : Names) (kind : DtoKind) (file : String) : Import :=
  .named [Dto.nameOf kind names.model] s!"./dto/{names.kebabPlural}.{file}.dto"

def dtoImports (names : Names) : List Import :=
  [dtoImport names .create "create", dtoImport names .update "update",
   dtoImport names .search "search"]

def script (s : Service) : Script where
  imports := [
    .effect "reflect-metadata",
    .named ["Service"] "typedi",
    .named [s.names.model ++ "Entity"] "../../generated/model-interfaces",
    .named ["RepositoryService"] "../../generated/repository.service",
    .named ["INTEGER_REGEX"] "../../generated/common.regex",
    .named ["parseQueryParams"] "../../lib/utils/query-parser.utils"] ++ dtoImports s.names
  items := spaced [.declaration s.interface, .declaration s.implementation]

end Service

end EntityForge.Resource
