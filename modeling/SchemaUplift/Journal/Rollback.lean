import SchemaUplift.Journal.Entry
import SchemaUplift.Telemetry.Request

/-! Undoing recorded changes, newest first, on whatever resolves their addresses. -/

namespace SchemaUplift

/-- A part of a whole: its value, and the whole with another value in its place. -/
structure Part (τ α : Type) where
  /-- The value of the part. -/
  value : α
  /-- The whole after the part is given a value. -/
  put : α → τ

namespace Part

variable {τ σ α : Type}

/-- The item of a list at an index. -/
def item? (items : List α) (index : Nat) : Option (Part (List α) α) :=
  items[index]?.map fun item => ⟨item, items.set index⟩

/-- A part of a part, as a part of the whole. -/
def within (outer : Part τ σ) (inner : Part σ α) : Part τ α :=
  ⟨inner.value, fun value => outer.put (inner.put value)⟩

/-- The same part with the whole seen through a function. -/
def map (f : τ → σ) (part : Part τ α) : Part σ α := ⟨part.value, fun value => f (part.put value)⟩

end Part

/-- Telemetry in which recorded changes can be undone: it finds what an address stands for. -/
class RollbackTarget (τ : Type) where
  /-- The attributes at an address. -/
  attributes? : τ → Address → Option (Part τ Attributes)
  /-- The name at an address. -/
  name? : τ → Address → Option (Part τ String)
  /-- The metric at an address. -/
  metric? : τ → Address → Option (Part τ Metric)
  /-- The list of metrics at an address. -/
  metrics? : τ → Address → Option (Part τ (List Metric))
  /-- The schema URL at an address. -/
  schemaUrl? : τ → Address → Option (Part τ String)

/-! ### What each kind of telemetry resolves -/

/-- The attributes of a resource. -/
def Resource.attributesPart (resource : Resource) : Part Resource Attributes :=
  ⟨resource.attributes, fun attributes => { resource with attributes }⟩

instance : RollbackTarget Resource where
  attributes? resource
    | ⟨.here, .resource⟩ => some resource.attributesPart
    | _ => none
  name? _ _ := none
  metric? _ _ := none
  metrics? _ _ := none
  schemaUrl? _ _ := none

/-- The attributes of a span. -/
def Span.attributesPart (span : Span) : Part Span Attributes :=
  ⟨span.attributes, fun attributes => { span with attributes }⟩

/-- The event of a span at an index. -/
def Span.event? (span : Span) (index : Nat) : Option (Part Span SpanEvent) :=
  (Part.item? span.events index).map (Part.map fun events => { span with events })

/-- The attributes of a span event. -/
def SpanEvent.attributesPart (event : SpanEvent) : Part SpanEvent Attributes :=
  ⟨event.attributes, fun attributes => { event with attributes }⟩

/-- The name of a span event. -/
def SpanEvent.namePart (event : SpanEvent) : Part SpanEvent String :=
  ⟨event.name, fun name => { event with name }⟩

instance : RollbackTarget (List Span) where
  attributes? spans
    | ⟨.here, .span index⟩ => do
      let span ← Part.item? spans index
      return span.within span.value.attributesPart
    | ⟨.here, .spanEvent index event⟩ => do
      let span ← Part.item? spans index
      let event ← span.value.event? event
      return span.within (event.within event.value.attributesPart)
    | _ => none
  name? spans
    | ⟨.here, .spanEvent index event⟩ => do
      let span ← Part.item? spans index
      let event ← span.value.event? event
      return span.within (event.within event.value.namePart)
    | _ => none
  metric? _ _ := none
  metrics? _ _ := none
  schemaUrl? _ _ := none

/-- The attributes of a data point. -/
def Point.attributesPart {ρ : Type} (point : Point ρ) : Part (Point ρ) Attributes :=
  ⟨point.attributes, fun attributes => { point with attributes }⟩

/-- The attributes of the data point at an index. -/
def MetricData.attributes? (data : MetricData) (index : Nat) :
    Option (Part MetricData Attributes) :=
  match data with
  | .numbers kind points => do
    let point ← Part.item? points index
    return (point.within point.value.attributesPart).map (.numbers kind)
  | .distributions kind points => do
    let point ← Part.item? points index
    return (point.within point.value.attributesPart).map (.distributions kind)

/-- The attributes of the data point at an index. -/
def Metric.attributes? (metric : Metric) (index : Nat) : Option (Part Metric Attributes) := do
  let data ← metric.data
  let part ← data.attributes? index
  return part.map fun data => { metric with data := some data }

/-- The name of a metric. -/
def Metric.namePart (metric : Metric) : Part Metric String :=
  ⟨metric.name, fun name => { metric with name }⟩

instance : RollbackTarget (List Metric) where
  attributes? metrics
    | ⟨.here, .dataPoint index point⟩ => do
      let metric ← Part.item? metrics index
      let attributes ← metric.value.attributes? point
      return metric.within attributes
    | _ => none
  name? metrics
    | ⟨.here, .metric index⟩ => do
      let metric ← Part.item? metrics index
      return metric.within metric.value.namePart
    | _ => none
  metric? metrics
    | ⟨.here, .metric index⟩ => Part.item? metrics index
    | _ => none
  metrics? metrics
    | ⟨.here, .metricList⟩ => some ⟨metrics, id⟩
    | _ => none
  schemaUrl? _ _ := none

/-- The attributes of a log record. -/
def LogRecord.attributesPart (record : LogRecord) : Part LogRecord Attributes :=
  ⟨record.attributes, fun attributes => { record with attributes }⟩

instance : RollbackTarget (List LogRecord) where
  attributes? records
    | ⟨.here, .logRecord index⟩ => do
      let record ← Part.item? records index
      return record.within record.value.attributesPart
    | _ => none
  name? _ _ := none
  metric? _ _ := none
  metrics? _ _ := none
  schemaUrl? _ _ := none

/-! ### Requests -/

section Batches

variable {α : Type}

/-- The resource of a batch, if it has one. -/
def ResourceBatch.resource? (batch : ResourceBatch α) : Option (Part (ResourceBatch α) Resource) :=
  batch.resource.map fun resource =>
    ⟨resource, fun resource => { batch with resource := some resource }⟩

/-- The schema URL of a batch. -/
def ResourceBatch.urlPart (batch : ResourceBatch α) : Part (ResourceBatch α) String :=
  ⟨batch.schemaUrl, fun schemaUrl => { batch with schemaUrl }⟩

/-- The scope batch at an index. -/
def ResourceBatch.scope? (batch : ResourceBatch α) (index : Nat) :
    Option (Part (ResourceBatch α) (ScopeBatch α)) :=
  (Part.item? batch.scopes index).map (Part.map fun scopes => { batch with scopes })

/-- The items of a scope batch. -/
def ScopeBatch.itemsPart (scope : ScopeBatch α) : Part (ScopeBatch α) (List α) :=
  ⟨scope.items, fun items => { scope with items }⟩

/-- The schema URL of a scope batch. -/
def ScopeBatch.urlPart (scope : ScopeBatch α) : Part (ScopeBatch α) String :=
  ⟨scope.schemaUrl, fun schemaUrl => { scope with schemaUrl }⟩

/-- The scope batch that an origin names. -/
def scopeAt? (batches : List (ResourceBatch α)) :
    Origin → Option (Part (List (ResourceBatch α)) (ScopeBatch α))
  | .scope batch scope => do
    let batch ← Part.item? batches batch
    let scope ← batch.value.scope? scope
    return batch.within scope
  | _ => none

/-- The items of the scope batch that an origin names. -/
def itemsAt? (batches : List (ResourceBatch α)) (origin : Origin) :
    Option (Part (List (ResourceBatch α)) (List α)) := do
  let scope ← scopeAt? batches origin
  return scope.within scope.value.itemsPart

/-- The resource that an origin names. -/
def resourceAt? (batches : List (ResourceBatch α)) :
    Origin → Option (Part (List (ResourceBatch α)) Resource)
  | .resource batch => do
    let batch ← Part.item? batches batch
    let resource ← batch.value.resource?
    return batch.within resource
  | _ => none

/-- The batches of a request resolve an address by its origin, and hand what is left of it to the
resource or the items found there. An address without an origin names nothing in a request. -/
instance [RollbackTarget (List α)] : RollbackTarget (List (ResourceBatch α)) where
  attributes? batches address :=
    match address.origin with
    | .here => none
    | .resource _ => do
      let resource ← resourceAt? batches address.origin
      let part ← RollbackTarget.attributes? resource.value address.localized
      return resource.within part
    | .scope .. => do
      let items ← itemsAt? batches address.origin
      let part ← RollbackTarget.attributes? items.value address.localized
      return items.within part
  name? batches address := do
    let items ← itemsAt? batches address.origin
    let part ← RollbackTarget.name? items.value address.localized
    return items.within part
  metric? batches address := do
    let items ← itemsAt? batches address.origin
    let part ← RollbackTarget.metric? items.value address.localized
    return items.within part
  metrics? batches address := do
    let items ← itemsAt? batches address.origin
    let part ← RollbackTarget.metrics? items.value address.localized
    return items.within part
  schemaUrl? batches
    | ⟨.resource batch, .schemaUrl⟩ => do
      let batch ← Part.item? batches batch
      return batch.within batch.value.urlPart
    | ⟨.scope batch scope, .schemaUrl⟩ => do
      let scope ← scopeAt? batches (.scope batch scope)
      return scope.within scope.value.urlPart
    | _ => none

end Batches

/-- A request resolves addresses in the batches of its signal. -/
instance : RollbackTarget ExportRequest where
  attributes?
    | .traces batches, address =>
      (RollbackTarget.attributes? batches address).map (Part.map .traces)
    | .metrics batches, address =>
      (RollbackTarget.attributes? batches address).map (Part.map .metrics)
    | .logs batches, address => (RollbackTarget.attributes? batches address).map (Part.map .logs)
  name?
    | .traces batches, address => (RollbackTarget.name? batches address).map (Part.map .traces)
    | .metrics batches, address => (RollbackTarget.name? batches address).map (Part.map .metrics)
    | .logs batches, address => (RollbackTarget.name? batches address).map (Part.map .logs)
  metric?
    | .traces batches, address => (RollbackTarget.metric? batches address).map (Part.map .traces)
    | .metrics batches, address =>
      (RollbackTarget.metric? batches address).map (Part.map .metrics)
    | .logs batches, address => (RollbackTarget.metric? batches address).map (Part.map .logs)
  metrics?
    | .traces batches, address =>
      (RollbackTarget.metrics? batches address).map (Part.map .traces)
    | .metrics batches, address =>
      (RollbackTarget.metrics? batches address).map (Part.map .metrics)
    | .logs batches, address => (RollbackTarget.metrics? batches address).map (Part.map .logs)
  schemaUrl?
    | .traces batches, address =>
      (RollbackTarget.schemaUrl? batches address).map (Part.map .traces)
    | .metrics batches, address =>
      (RollbackTarget.schemaUrl? batches address).map (Part.map .metrics)
    | .logs batches, address => (RollbackTarget.schemaUrl? batches address).map (Part.map .logs)

/-! ### Undoing -/

/-- Gives the attributes at the listed positions their former keys, the last of the list first;
positions beyond the end are passed over. -/
def restoreKeys (keys : List (Nat × String)) (attributes : Attributes) : Attributes :=
  keys.foldr (fun entry attributes =>
    attributes.modify entry.1 fun old => { old with key := entry.2 }) attributes

section Undo

variable {τ α : Type}

/-- Puts a value back where the part was found, if it was. -/
def putBack (target : τ) (found : Option (Part τ α)) (value : α) : τ × Bool :=
  match found with
  | some part => (part.put value, true)
  | none => (target, false)

variable [RollbackTarget τ]

/-- Undoes one change; the flag says whether everything recorded was found in its place. -/
def JournalEntry.undo (target : τ) : JournalEntry → τ × Bool
  | .renamedKeys address keys =>
    match RollbackTarget.attributes? target address with
    | some part =>
      (part.put (restoreKeys keys part.value), keys.all fun entry => entry.1 < part.value.length)
    | none => (target, false)
  | .renamedName address name => putBack target (RollbackTarget.name? target address) name
  | .replacedMetric address metric =>
    putBack target (RollbackTarget.metric? target address) metric
  | .replacedMetrics address metrics =>
    putBack target (RollbackTarget.metrics? target address) metrics
  | .schemaUrl address url => putBack target (RollbackTarget.schemaUrl? target address) url

/-- Undoes the changes, the newest first, and counts those whose place was found. -/
def Journal.rollback (log : Journal) (target : τ) : τ × Nat :=
  log.records.foldr (fun record undone =>
    let (target, found) := record.undo undone.1
    (target, undone.2 + if found then 1 else 0)) (target, 0)

end Undo

end SchemaUplift
