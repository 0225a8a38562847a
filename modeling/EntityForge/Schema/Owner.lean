import EntityForge.Schema

/-!
Which field of an entity identifies the user that owns a row.
-/

namespace EntityForge

structure OwnerPolicy where
  ownerModel : String
  defaultField : String
  deriving Repr, DecidableEq

/-- The owner field, either found by a reference to the owner model or assumed. -/
inductive OwnerField where
  | detected (name : String)
  | fallback (name : String)
  deriving Repr, DecidableEq

namespace OwnerField

def name : OwnerField → String
  | .detected name => name
  | .fallback name => name

def isDetected : OwnerField → Bool
  | .detected _ => true
  | .fallback _ => false

end OwnerField

namespace OwnerPolicy

def standard : OwnerPolicy := ⟨"User", "owner_id"⟩

/-- The first field, in declared order, that references the owner model. -/
def ownerField (policy : OwnerPolicy) (entity : Entity) : OwnerField :=
  match entity.fields.find? fun f => f.references == some policy.ownerModel with
  | some field => .detected field.name
  | none => .fallback policy.defaultField

end OwnerPolicy

end EntityForge
