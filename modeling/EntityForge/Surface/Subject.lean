import EntityForge.Schema.Accessor
import EntityForge.Schema.Owner

/-!
What every surface of an entity is made from, and the surfaces there are.
-/

namespace EntityForge

/-- All that may be said about one entity; nothing else of the schema reaches a surface. -/
structure Subject where
  entity : Entity
  accessors : List Accessor
  owner : OwnerField
  deriving Repr, DecidableEq

def Subject.of (policy : OwnerPolicy) (resolved : ResolvedEntity) : Subject :=
  ⟨resolved.entity, resolved.accessors, policy.ownerField resolved.entity⟩

def Subject.names (subject : Subject) : Names := Names.ofModel subject.entity.name

inductive Surface where
  | contract
  | sequelizeModel
  | sequelizeAssociations
  | drizzleTable
  | drizzleRelations
  | graphqlSdl
  | graphql
  | openApi
  | controller
  | service
  | guard
  | repository
  | createDto
  | updateDto
  | searchDto
  deriving Repr, DecidableEq

/-- The surfaces in the order in which an entity's are made. -/
def Surface.all : List Surface :=
  [.contract, .sequelizeModel, .sequelizeAssociations, .drizzleTable, .drizzleRelations,
   .graphqlSdl, .graphql, .openApi, .controller, .service, .guard, .repository, .createDto,
   .updateDto, .searchDto]

end EntityForge
