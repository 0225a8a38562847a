import EntityForge.Surface.Subject
import EntityForge.TypeScript

/-!
The repository of an entity: the token under which it is injected, and what is injected.
-/

namespace EntityForge.Resource

open TypeScript

def repository (subject : Subject) : Script :=
  let n := subject.names
  let entity := n.model ++ "Entity"
  let wrap := "sequelize_model_class_crud_to_entity_object"
  { imports := [
      .effect "reflect-metadata",
      .named ["Container", "Token"] "typedi",
      .named [entity] "../../generated/model-interfaces",
      .named [n.model] "../../generated/models.sequelize",
      .named [wrap, "IModelCrud"] "../../lib/utils/sequelize.utils"]
    items := spaced [
      .declaration (constant n.token s!"new Token<IModelCrud<{entity}>>(\"{n.token}\");\n"),
      .statement s!"const {n.plural}Repo: IModelCrud<{entity}> = {wrap}<{entity}>({n.model});\n",
      .statement s!"Container.set({n.token}, {n.plural}Repo);\n"] }

end EntityForge.Resource
