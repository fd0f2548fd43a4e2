import SchemaUplift.Table

/-! Which rules of a pass concern an entity, looked up by the entity's name. -/

namespace SchemaUplift

/-- Positions of rules in a pass, ascending: for the names that rules mention, and for all
other names. -/
structure Routing where
  /-- The positions for names that are mentioned. -/
  byName : Table (List Nat)
  /-- The positions for every other name. -/
  fallback : List Nat

namespace Routing

/-- The positions of the rules for an entity of the given name. -/
def forName (routing : Routing) (name : String) : List Nat :=
  (routing.byName.get? name).getD routing.fallback

/-- The rules of a pass for an entity of the given name. -/
def select {α : Type} (routing : Routing) (rules : List α) (name : String) : List α :=
  (routing.forName name).filterMap (rules[·]?)

end Routing

/-- The positions of the items that pass a test, ascending. -/
def positionsWhere {α : Type} (test : α → Bool) (items : List α) : List Nat :=
  (items.zipIdx.filter fun entry => test entry.1).map (·.2)

end SchemaUplift
