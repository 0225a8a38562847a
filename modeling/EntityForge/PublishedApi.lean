import EntityForge.Document
import EntityForge.Json.Merge
import EntityForge.Json.Reader

/-!
The OpenAPI document of a whole schema: a header, into which the fragment of each entity is merged.
-/

namespace EntityForge.PublishedApi

/-- The document before any entity has contributed to it. -/
def header (api : ApiHeader) : Json :=
  .object [
    ("openapi", .string "3.0.0"),
    ("info", .object [
      ("title", .string api.title),
      ("description", .string api.description),
      ("version", .string api.version)]),
    ("servers", .array (api.servers.map fun server =>
      .object [("url", .string server.url), ("description", .string server.description)])),
    ("paths", .object []),
    ("components", .object [("schemas", .object [])])]

/-- The document with one more fragment, given as text. A text that is no JSON is refused. -/
def mergeText (document : Json) (fragment : String) : Except Json.Fault Json := do
  return document.merge (← Json.parse fragment)

def mergeTexts (document : Json) (fragments : List String) : Except Json.Fault Json :=
  fragments.foldlM mergeText document

end EntityForge.PublishedApi
