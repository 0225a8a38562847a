import EntityForge.Surface.Drizzle
import EntityForge.Surface.Graphql
import EntityForge.Surface.OpenApi
import EntityForge.Surface.Resource.Controller
import EntityForge.Surface.Resource.Repository
import EntityForge.Surface.Sequelize

/-!
The text of every surface of an entity.
-/

namespace EntityForge

namespace Surface

open TypeScript (Script)

/-- The file of a surface that has one of its own for every entity. -/
def script? (subject : Subject) : Surface → Option Script
  | .controller => some (Resource.Controller.script subject)
  | .service => some (Resource.Service.of subject).script
  | .guard => some (Resource.Guard.of subject).script
  | .repository => some (Resource.repository subject)
  | .createDto => some (Dto.of .create subject).script
  | .updateDto => some (Dto.of .update subject).script
  | .searchDto => some (Dto.of .search subject).script
  | _ => none

def text (subject : Subject) : Surface → String
  | .contract => (Contract.of subject).declaration.text
  | .sequelizeModel => (Sequelize.Model.of subject).declaration.text
  | .sequelizeAssociations =>
    String.join ((Sequelize.associations subject).map Sequelize.Association.text)
  | .drizzleTable => (Drizzle.Table.of subject).declaration.text
  | .drizzleRelations =>
    ((Drizzle.Relations.of? subject).map fun r => r.declaration.text).getD ""
  | .graphqlSdl => (Graphql.TypeDefinition.of subject).text
  | .graphql => String.join ((Graphql.items subject).map TypeScript.Item.text)
  | .openApi => (OpenApi.fragment subject.entity).prettyText
  | .controller => (Resource.Controller.script subject).text
  | .service => (Resource.Service.of subject).script.text
  | .guard => (Resource.Guard.of subject).script.text
  | .repository => (Resource.repository subject).text
  | .createDto => (Dto.of .create subject).script.text
  | .updateDto => (Dto.of .update subject).script.text
  | .searchDto => (Dto.of .search subject).script.text

end Surface

/-- One surface of one entity, as text. -/
structure Fragment where
  surface : Surface
  entity : String
  text : String
  deriving Repr, DecidableEq

def Fragment.of (subject : Subject) (surface : Surface) : Fragment :=
  ⟨surface, subject.entity.name, surface.text subject⟩

end EntityForge
