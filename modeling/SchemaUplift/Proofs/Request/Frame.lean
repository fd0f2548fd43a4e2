import SchemaUplift.Proofs.Rename
import SchemaUplift.Proofs.Request.Counts
import SchemaUplift.Proofs.Rule.Routing
import SchemaUplift.Proofs.Schema.Path

/-! What a conversion leaves alone, whether it succeeds or not: everything about traces and logs but
attribute keys, event names and schema URLs. -/

namespace SchemaUplift

/-! ### Telemetry without the texts that conversions change -/

/-- The attributes with their keys left blank. -/
def Attributes.outline (attributes : Attributes) : Attributes :=
  attributes.map fun entry => { entry with key := "" }

/-- The resource with the keys of its attributes left blank. -/
def Resource.outline (resource : Resource) : Resource :=
  { resource with attributes := resource.attributes.outline }

/-- The event with its name and the keys of its attributes left blank. -/
def SpanEvent.outline (event : SpanEvent) : SpanEvent :=
  { event with name := "", attributes := event.attributes.outline }

/-- The span with the keys of its attributes, and its events, left blank. -/
def Span.outline (span : Span) : Span :=
  { span with
    attributes := span.attributes.outline
    events := span.events.map SpanEvent.outline }

/-- The log record with the keys of its attributes left blank. -/
def LogRecord.outline (record : LogRecord) : LogRecord :=
  { record with attributes := record.attributes.outline }

section Batches

variable {α : Type} (outlineItems : List α → List α)

/-- The scope batch with its schema URL left blank, and its items seen through a function. -/
def ScopeBatch.outline (batch : ScopeBatch α) : ScopeBatch α :=
  { batch with schemaUrl := "", items := outlineItems batch.items }

/-- The resource batch with schema URLs and the keys of its resource left blank, and its items seen
through a function. -/
def ResourceBatch.outline (batch : ResourceBatch α) : ResourceBatch α :=
  { resource := batch.resource.map Resource.outline
    schemaUrl := ""
    scopes := batch.scopes.map (ScopeBatch.outline outlineItems) }

end Batches

/-- The request with all attribute keys, event names and schema URLs left blank; of metrics only the
batches are seen, without the metrics in them. -/
def ExportRequest.outline : ExportRequest → ExportRequest
  | .traces batches => .traces (batches.map (ResourceBatch.outline (List.map Span.outline)))
  | .metrics batches => .metrics (batches.map (ResourceBatch.outline fun _ => []))
  | .logs batches => .logs (batches.map (ResourceBatch.outline (List.map LogRecord.outline)))

/-! ### Rules -/

/-- A rename leaves alone all of the attributes but their keys. -/
theorem RenameTable.outline_convert (table : RenameTable) (address : Address)
    (attributes : Attributes) :
    (table.convert address attributes).value.outline = attributes.outline := by
  -- The outline shows the values in their order, which no rename changes.
  have outline_eq (attributes : Attributes) :
      attributes.outline = (attributes.map (·.value)).map (Attribute.mk "") := by
    simp [Attributes.outline]
  rw [outline_eq, map_value_convert, ← outline_eq]

/-- A rename leaves alone all of a resource but its keys. -/
theorem RenameTable.outline_convertResource (table : RenameTable) (resource : Resource) :
    (table.convertResource resource).value.outline = resource.outline :=
  congrArg (fun attributes => ({ resource with attributes } : Resource))
    (table.outline_convert _ resource.attributes)

/-- A rename leaves alone all of a log record but its keys. -/
theorem RenameTable.outline_convertLogRecord (table : RenameTable) (index : Nat)
    (record : LogRecord) :
    (table.convertLogRecord index record).value.outline = record.outline :=
  congrArg (fun attributes => ({ record with attributes } : LogRecord))
    (table.outline_convert _ record.attributes)

/-- A rule for spans leaves alone all of a span but its keys. -/
theorem SpanRule.outline_convert (rule : SpanRule) (index : Nat) (span : Span) :
    (rule.convert index span).value.outline = span.outline := by
  -- A span in scope has its own attributes renamed, and nothing of its events or links.
  unfold convert
  split
  · have kept := rule.table.outline_convert (.here (.span index)) span.attributes
    exact congrArg (fun attributes => { span.outline with attributes }) kept
  · -- A span out of scope is left alone.
    rfl

/-- A rule for events leaves alone all of a span but the names and keys of its events. -/
theorem EventRule.outline_convert (rule : EventRule) (index : Nat) (span : Span) :
    (rule.convert index span).value.outline = span.outline := by
  -- The rule changes nothing but events, each of which keeps its outline.
  have within {events : List SpanEvent}
      (kept : events.map SpanEvent.outline = span.events.map SpanEvent.outline) :
      ({ span with events } : Span).outline = span.outline := by
    simp [Span.outline, kept]
  cases rule with
  | renameEvents names =>
    -- An event is renamed or not, which its outline does not tell.
    refine within (Attempt.map_value_forEach ?_ span.events)
    intro place event
    unfold renameEvent
    split <;> rfl
  | renameAttributes spans events table =>
    -- An event in scope keeps all but its keys, and any other one is left alone.
    have each (place : Nat) (event : SpanEvent) :
        (convertAttributes events table (.here (.spanEvent index place)) event).value.outline =
          event.outline := by
      unfold convertAttributes
      split
      · exact congrArg (fun attributes => ({ event with name := "", attributes } : SpanEvent))
          (table.outline_convert _ event.attributes)
      · rfl
    simp only [convert]
    split
    · exact within (Attempt.map_value_forEach each span.events)
    · rfl

/-- A pass leaves alone all of the spans but keys and event names. -/
theorem SpanPass.map_outline_convert (pass : SpanPass) (spans : List Span) :
    (pass.convert spans).value.map Span.outline = spans.map Span.outline := by
  rw [pass.convert_eq]
  refine Attempt.map_value_forEach ?_ spans
  intro index span
  -- The rules for spans and those for events are the steps of one sequence.
  rw [← Attempt.inSequence_append]
  refine Attempt.keeps_value_inSequence ?_ span
  simp only [List.mem_append, List.mem_map]
  rintro step (⟨rule, -, rfl⟩ | ⟨rule, -, rfl⟩) span
  · -- A rule for spans leaves the outline as it is.
    exact rule.outline_convert index span
  · -- So does a rule for events.
    exact rule.outline_convert index span

/-! ### From version to version -/

namespace Schema

variable (schema : Schema) (start : Version)

/-- A conversion leaves alone all of a resource but its keys. -/
theorem outline_convertResource (resource : Resource) :
    (schema.convertResource start resource).value.outline = resource.outline := by
  -- The outline is kept from version to version.
  refine Attempt.keeps_value_inSequence (List.forall_mem_map.2 fun step _ resource => ?_) resource
  -- A version renames by one table after the other.
  exact Attempt.keeps_value_inSequence
    (List.forall_mem_map.2 fun table _ => table.outline_convertResource) resource

/-- A conversion leaves alone all of the spans but keys and event names. -/
theorem map_outline_convertSpans (spans : List Span) :
    (schema.convertSpans start spans).value.map Span.outline = spans.map Span.outline := by
  -- Passes over spans follow each other from version to version.
  rw [convertSpans_eq]
  exact Attempt.keeps_value_inSequence
    (List.forall_mem_map.2 fun step _ => step.spans.map_outline_convert) spans

/-- A conversion leaves alone all of the log records but their keys. -/
theorem map_outline_convertLogs (records : List LogRecord) :
    (schema.convertLogs start records).value.map LogRecord.outline =
      records.map LogRecord.outline := by
  rw [convertLogs_eq]
  -- Each version takes every record through its tables.
  refine Attempt.keeps_value_inSequence (List.forall_mem_map.2 fun step _ records => ?_) records
  refine Attempt.map_value_forEach (fun index record => ?_) records
  exact Attempt.keeps_value_inSequence
    (List.forall_mem_map.2 fun table _ => table.outline_convertLogRecord index) record

end Schema

/-! ### Requests -/

namespace RequestConversion

section Batches

variable {α : Type} (conversion : RequestConversion)
  {convert : Version → List α → Conversion (List α)} {outlineItems : List α → List α}
  (keeps : ∀ start items, outlineItems (convert start items).value = outlineItems items)

include keeps

/-- Only the items and the URL of a scope batch are converted. -/
theorem outline_applyToScope (inherited : Version) (origin : Origin) (scope : ScopeBatch α) :
    (conversion.applyToScope convert inherited origin scope).value.outline outlineItems =
      scope.outline outlineItems := by
  -- First the items are converted, and then the URL, which the outline leaves out.
  refine Attempt.keeps_value_inSequence ?_ scope
  simp only [List.forall_mem_cons, List.not_mem_nil, false_implies, implies_true, and_true]
  constructor
  · -- The items are converted, which their outline does not tell.
    intro scope
    simp [Attempt.map, Attempt.mapRecords, ScopeBatch.outline, keeps]
  · -- The URL is set, and the outline leaves it out.
    intro scope
    rfl

/-- Of a resource batch only the resource, the scope batches and the URL are converted. -/
theorem outline_applyToBatch (index : Nat) (batch : ResourceBatch α) :
    (conversion.applyToBatch convert index batch).value.outline outlineItems =
      batch.outline outlineItems := by
  -- The resource, the scopes and the URL follow each other.
  refine Attempt.keeps_value_inSequence ?_ batch
  simp only [List.forall_mem_cons, List.not_mem_nil, false_implies, implies_true, and_true]
  refine ⟨fun batch => ?_, fun batch => ?_, fun batch => rfl⟩
  · -- A batch without a resource is left alone.
    cases present : batch.resource with
    | none => simp [Attempt.map, ResourceBatch.outline, applyToResource, Attempt.unchanged, present]
    | some resource =>
      simp [Attempt.map, Attempt.mapRecords, ResourceBatch.outline, applyToResource, present,
        Schema.outline_convertResource]
  · -- All scopes are kept, also those after one that could not be converted.
    have scopes (inherited : Version) := Attempt.map_value_forEach
      (fun place => conversion.outline_applyToScope keeps inherited (.scope index place))
      batch.scopes
    simp [Attempt.map, ResourceBatch.outline, scopes]

/-- Batches are converted one by one. -/
theorem map_outline_applyToBatches (batches : List (ResourceBatch α)) :
    (conversion.applyToBatches convert batches).value.map (ResourceBatch.outline outlineItems) =
      batches.map (ResourceBatch.outline outlineItems) :=
  Attempt.map_value_forEach (conversion.outline_applyToBatch keeps) batches

end Batches

/-- Whatever the outcome of a conversion, the request is the one from before once attribute keys,
event names and schema URLs are left blank: there are the same batches, scopes, spans, events, links
and log records, with the same attribute values in the same places and the same other fields. Of a
request for metrics that is so for its batches, resources and scopes. -/
theorem outline_value_convert (conversion : RequestConversion) (request : ExportRequest) :
    (conversion.convert request).value.outline = request.outline := by
  -- Counts are no part of the request.
  rw [convert_eq_applyTo]
  -- Items of each kind have an outline of their own, and metrics are all left out.
  cases request with
  | traces batches =>
    exact congrArg ExportRequest.traces (conversion.map_outline_applyToBatches
      conversion.schema.map_outline_convertSpans batches)
  | metrics batches =>
    exact congrArg ExportRequest.metrics (conversion.map_outline_applyToBatches
      (fun _ _ => rfl) batches)
  | logs batches =>
    exact congrArg ExportRequest.logs (conversion.map_outline_applyToBatches
      conversion.schema.map_outline_convertLogs batches)

end RequestConversion

end SchemaUplift
