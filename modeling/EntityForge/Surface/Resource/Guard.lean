import EntityForge.Surface.Subject
import EntityForge.TypeScript

/-!
The guards of an entity: one lets a request pass only if the row exists, the other is meant to ask
whether the user owns the row and lets every request pass until it is enabled.
-/

namespace EntityForge.Resource

open TypeScript

/-- How a guard reads the key from the path of a request. -/
inductive KeyReading where
  | integer
  | text
  deriving Repr, DecidableEq

def KeyReading.expression : KeyReading → String
  | .integer => "parseInt(request.params.id, 10)"
  | .text => "request.params.id"

def KeyReading.type : KeyReading → SurfaceType
  | .integer => .number
  | .text => .string

structure Guard where
  names : Names
  key : String
  keyReading : KeyReading
  ownerField : String
  deriving Repr, DecidableEq

namespace Guard

def of (subject : Subject) : Guard where
  names := subject.names
  key := subject.entity.primaryKey
  keyReading := .integer
  ownerField := subject.owner.name

def parameters : String := "(request: Request, response: Response, next: NextFunction)"

def existsName (model : String) : String := model ++ "Exists"

def ownsName (model : String) : String := "AuthUserOwns" ++ model

def existence (g : Guard) : Declaration :=
  let n := g.names
  let reading := g.keyReading.expression
  { lead := ""
    keyword := .function
    name := existsName n.model
    body := parameters ++ lines [
      " \x7b",
      s!"  const {g.key} = {reading};",
      s!"  const {n.binding} = await Container.get({n.token}).findOne(\x7b where: \x7b {g.key} \x7d \x7d);",
      s!"  if (!{n.binding}) \x7b",
      "    return response.status(HttpStatusCodes.NOT_FOUND).json(\x7b",
      s!"      message: `{n.model} does not exist by {g.key}: $\x7b{g.key}\x7d`,",
      "    \x7d);",
      "  \x7d",
      s!"  response.locals.{n.binding} = {n.binding};",
      "  return next();",
      "\x7d"] }

def ownership (g : Guard) : Declaration :=
  let n := g.names
  { lead := ""
    keyword := .function
    name := ownsName n.model
    body := parameters ++ lines [
      " \x7b",
      "  /* Ownership check disabled until an authorization rule is chosen.",
      s!"  const {n.binding} = response.locals.{n.binding} as {n.model}Entity;",
      s!"  const isOwner = {n.binding}.{g.ownerField} === request[\"auth\"].id;",
      "  if (!isOwner) \x7b",
      "    return response.status(HttpStatusCodes.FORBIDDEN).json(\x7b",
      s!"      message: `User is not owner of {n.model} by {g.key}: $\x7b{n.binding}.{g.key}\x7d`,",
      "    \x7d);",
      "  \x7d",
      "  */",
      "  return next();",
      "\x7d"] }

def script (g : Guard) : Script :=
  let n := g.names
  { imports := [
      .named ["NextFunction", "Request", "Response"] "express",
      .named ["Container"] "typedi",
      .named ["HttpStatusCodes"] "@app/shared",
      .named [n.model ++ "Entity"] "../../generated/model-interfaces",
      .named [n.token] ("./" ++ n.kebabPlural ++ ".repository")]
    items := spaced [.declaration g.existence, .declaration g.ownership] }

end Guard

end EntityForge.Resource
