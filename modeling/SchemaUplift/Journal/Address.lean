/-! Addresses of the entities that a conversion changes. -/

namespace SchemaUplift

/-- The part of a request that an address is relative to. -/
inductive Origin where
  /-- Whatever was handed over, be it a resource, a list or a request. -/
  | here
  /-- The resource batch with this index. -/
  | resource (batch : Nat)
  /-- The scope batch with the second index, within the resource batch with the first. -/
  | scope (batch scope : Nat)
deriving DecidableEq, Repr

/-- The entity addressed, within its origin. -/
inductive Entity where
  /-- The resource. -/
  | resource
  /-- The span with this index. -/
  | span (index : Nat)
  /-- The event with the second index, of the span with the first. -/
  | spanEvent (span event : Nat)
  /-- The list of metrics as a whole. -/
  | metricList
  /-- The metric with this index. -/
  | metric (index : Nat)
  /-- The data point with the second index, of the metric with the first. -/
  | dataPoint (metric point : Nat)
  /-- The log record with this index. -/
  | logRecord (index : Nat)
  /-- The schema URL. -/
  | schemaUrl
deriving DecidableEq, Repr

/-- The address of an entity. -/
structure Address where
  /-- What the entity is looked up in. -/
  origin : Origin
  /-- The entity. -/
  entity : Entity
deriving DecidableEq, Repr

namespace Address

/-- The address of an entity in what was handed over. -/
def here (entity : Entity) : Address := ⟨.here, entity⟩

/-- The same entity seen from the request that has what was handed over at `origin`; an address
that already names its place in a request is kept. -/
def within (origin : Origin) (address : Address) : Address :=
  match address.origin with
  | .here => { address with origin }
  | _ => address

/-- The same entity with its origin forgotten. -/
def localized (address : Address) : Address := here address.entity

end Address

end SchemaUplift
