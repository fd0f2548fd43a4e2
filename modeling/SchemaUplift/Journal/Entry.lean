import SchemaUplift.Journal.Address
import SchemaUplift.Telemetry.Metric

/-! Records of changes, each of which holds what it takes to undo the change, and logs of them. -/

namespace SchemaUplift

/-- One change, with what was there before. -/
inductive JournalEntry where
  /-- Attribute keys were changed; each is given by its position and former text. -/
  | renamedKeys (address : Address) (keys : List (Nat × String))
  /-- A metric or a span event got another name. -/
  | renamedName (address : Address) (name : String)
  /-- A metric was changed in several respects. -/
  | replacedMetric (address : Address) (metric : Metric)
  /-- A list of metrics was rearranged. -/
  | replacedMetrics (address : Address) (metrics : List Metric)
  /-- A schema URL was redirected. -/
  | schemaUrl (address : Address) (url : String)

namespace JournalEntry

/-- Where the change was made. -/
def address : JournalEntry → Address
  | .renamedKeys address _ => address
  | .renamedName address _ => address
  | .replacedMetric address _ => address
  | .replacedMetrics address _ => address
  | .schemaUrl address _ => address

/-- The same change at the address that the function gives. -/
def relocate (f : Address → Address) : JournalEntry → JournalEntry
  | .renamedKeys address keys => .renamedKeys (f address) keys
  | .renamedName address name => .renamedName (f address) name
  | .replacedMetric address metric => .replacedMetric (f address) metric
  | .replacedMetrics address metrics => .replacedMetrics (f address) metrics
  | .schemaUrl address url => .schemaUrl (f address) url

/-- The same change seen from the request that has its place at `origin`. -/
def within (origin : Origin) (record : JournalEntry) : JournalEntry :=
  record.relocate (Address.within origin)

end JournalEntry

/-- The changes of one or more conversions, oldest first. -/
structure Journal where
  /-- The changes. -/
  records : List JournalEntry

namespace Journal

/-- The log without changes. -/
def empty : Journal := ⟨[]⟩

instance : EmptyCollection Journal := ⟨empty⟩

instance : Inhabited Journal := ⟨empty⟩

/-- The number of changes. -/
def size (log : Journal) : Nat := log.records.length

/-- Whether no change was made. -/
def isEmpty (log : Journal) : Bool := log.records.isEmpty

/-- Adds a change at the end. -/
def push (log : Journal) (record : JournalEntry) : Journal := ⟨log.records ++ [record]⟩

/-- Adds the changes of another log at the end. -/
def merge (log other : Journal) : Journal := ⟨log.records ++ other.records⟩

/-- Adds the changes of another log at the end, with addresses seen from the request that has
their place at `origin`. -/
def mergeWithin (log other : Journal) (origin : Origin) : Journal :=
  ⟨log.records ++ other.records.map (JournalEntry.within origin)⟩

end Journal

end SchemaUplift
