import EntityForge.Surface.Resource.Guard
import EntityForge.Surface.Resource.Service

/-!
The controller of an entity: six routes, each handed on to the service.
-/

namespace EntityForge.Resource

open TypeScript

/-- A route: its verb and path, the guards before it, and the call it makes. -/
structure Route where
  verb : String
  path : String
  guards : List String
  description : String
  handler : String
  parameters : List String
  call : String
  deriving Repr, DecidableEq

def Route.text (r : Route) : String :=
  let guards := ", ".intercalate r.guards
  let parameters := ", ".intercalate r.parameters
  lines <|
    [s!"  @{r.verb}(\"{r.path}\")"]
      ++ (if r.guards.isEmpty then [] else [s!"  @UseBefore({guards})"])
      ++ [s!"  @OpenAPI(\x7b description: \"{r.description}\" \x7d)",
          s!"  {r.handler}({parameters}) \x7b",
          s!"    return {r.call};",
          "  \x7d"]

namespace Controller

def user : String := "@JwtUser() user: JwtUserData"

def key : String := "@Param(\"id\") id: number"

def body (dto : String) : String := s!"@Body(\x7b validate: true \x7d) dto: {dto}"

def login : String := "JwtAuthorized"

def routes (n : Names) : List Route :=
  let m := n.model
  let service := s!"this.{n.binding}Service"
  let owned := [login, Guard.existsName m, Guard.ownsName m]
  let change (verb action word : String) : Route :=
    { verb
      path := "/:id"
      guards := owned
      description := s!"{word} {m} by id"
      handler := action ++ m
      parameters := [user, key, body (Dto.nameOf .update m)]
      call := s!"{service}.{action}{m}(user.id, id, dto)" }
  [{ verb := "Get"
     path := "/search"
     guards := []
     description := "Search " ++ n.plural
     handler := "search" ++ n.plural
     parameters := ["@QueryParams() query: " ++ Dto.nameOf .search m]
     call := s!"{service}.get{m}BySearch(query)" },
   { verb := "Get"
     path := "/:id"
     guards := []
     description := s!"Get {m} by id"
     handler := s!"get{m}ById"
     parameters := [key]
     call := s!"{service}.get{m}ById(id)" },
   { verb := "Post"
     path := ""
     guards := [login]
     description := "Create " ++ m
     handler := "create" ++ m
     parameters := [user, body (Dto.nameOf .create m)]
     call := s!"{service}.create{m}(user.id, dto)" },
   change "Put" "update" "Overwrite",
   change "Patch" "patch" "Update",
   { verb := "Delete"
     path := "/:id"
     guards := owned
     description := s!"Delete {m} by id"
     handler := "delete" ++ m
     parameters := [user, key]
     call := s!"{service}.delete{m}(user.id, id)" }]

def declaration (n : Names) : Declaration :=
  let service := Service.className n.model
  { lead := s!"@Controller(\"/{n.kebabPlural}\")\n@Service()\n"
    keyword := .classType
    name := n.model ++ "Controller"
    body := s!" \x7b\n  constructor(private {n.binding}Service: {service}) \x7b\x7d\n\n"
      ++ "\n".intercalate ((routes n).map Route.text) ++ "\x7d\n" }

def script (subject : Subject) : Script :=
  let n := subject.names
  { imports := [
      .effect "reflect-metadata",
      .named ["Body", "Controller", "Delete", "Get", "Param", "Patch", "Post", "Put",
        "QueryParams", "UseBefore"] "routing-controllers",
      .named ["OpenAPI"] "routing-controllers-openapi",
      .named ["Service"] "typedi",
      .named ["JwtUserData"] "@app/shared",
      .named [login] "../../middlewares/jwt.middleware",
      .named ["JwtUser"] "../../decorators/jwt.decorator",
      .named [Service.className n.model] s!"./{n.kebabPlural}.service",
      .named [Guard.existsName n.model, Guard.ownsName n.model] s!"./{n.kebabPlural}.guard"]
        ++ Service.dtoImports n
    items := [.declaration (declaration n)] }

end Controller

end EntityForge.Resource
