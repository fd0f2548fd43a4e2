import SchemaUplift.Proofs.Request.Counts
import SchemaUplift.Proofs.Request.Placement
import SchemaUplift.Proofs.Rule.Reversal

/-! Rolling back a session gives back the request it started with, whatever conversions it went
through and wherever they failed. -/

namespace SchemaUplift

/-! ### Conversion with a schema -/

namespace Schema

variable (schema : Schema) (start : Version)

/-- Converting a resource reverts. -/
theorem reverts_convertResource (resource : Resource) :
    Reverts id resource (schema.convertResource start resource) := by
  -- A resource takes one version after the other.
  refine .inSequence ?_ resource
  simp only [List.mem_map]
  rintro step ⟨version, -, rfl⟩ value
  -- A version renames by one table after the other.
  refine .inSequence ?_ value
  simp only [List.mem_map]
  rintro step ⟨table, -, rfl⟩ value
  exact .map (table.reverts_convert (fun attributes => rfl) value.attributes) rfl

/-- A list is converted by passes that revert, or not at all. -/
theorem reverts_convertList {α : Type} [RollbackTarget (List α)]
    {passes : List (List α → Conversion (List α))}
    (each : ∀ pass ∈ passes, ∀ items, Reverts id items (pass items)) (items : List α) :
    Reverts id items (convertList passes items) := by
  -- An empty list is handed back, and others take the passes.
  unfold convertList
  split
  · exact .unchanged id items
  · exact .inSequence each items

/-- Converting spans reverts. -/
theorem reverts_convertSpans (spans : List Span) :
    Reverts id spans (schema.convertSpans start spans) := by
  -- Each pending version has one pass, which is known to revert.
  refine reverts_convertList ?_ spans
  simp only [List.mem_map]
  rintro pass ⟨version, -, rfl⟩ spans
  exact version.spans.reverts_convert spans

/-- Converting metrics reverts. -/
theorem reverts_convertMetrics (metrics : List Metric) :
    Reverts id metrics (schema.convertMetrics start metrics) := by
  -- Each pending version has one plan, which is known to revert.
  refine reverts_convertList ?_ metrics
  simp only [List.mem_map]
  rintro pass ⟨version, -, rfl⟩ metrics
  exact version.metrics.reverts_convert metrics

/-- The attributes of a log record in a list are found at its index. -/
theorem attributes?_logRecord_append (before after : List LogRecord) (record : LogRecord)
    (attributes : Attributes) :
    RollbackTarget.attributes? (before ++ { record with attributes } :: after)
        (.here (.logRecord before.length)) =
      some ⟨attributes, fun attributes => before ++ { record with attributes } :: after⟩ := by
  simp [RollbackTarget.attributes?, Address.here, Part.within, LogRecord.attributesPart]

/-- Converting log records reverts. -/
theorem reverts_convertLogs (records : List LogRecord) :
    Reverts id records (schema.convertLogs start records) := by
  -- Each pending version takes the records one by one, and each record takes all its tables.
  refine reverts_convertList ?_ records
  simp only [List.mem_map]
  rintro pass ⟨version, -, rfl⟩ records
  refine .forEach (fun before record after => .inSequence ?_ record) records
  simp only [List.mem_map]
  rintro step ⟨table, -, rfl⟩ value
  -- The table finds the attributes of the record at the index it has.
  exact .map (table.reverts_convert
    (attributes?_logRecord_append before after value) value.attributes) rfl

end Schema

/-! ### Conversion of requests -/

namespace RequestConversion

variable {α : Type} [RollbackTarget (List α)] (conversion : RequestConversion)
  (before after : List (ResourceBatch α))

/-- Redirecting a schema URL that is found at an origin reverts. -/
theorem reverts_redirect {whole : String → List (ResourceBatch α)} {origin : Origin}
    (found : ∀ url,
      RollbackTarget.schemaUrl? (whole url) ⟨origin, .schemaUrl⟩ = some ⟨url, whole⟩)
    (start : Version) (url : String) :
    Reverts whole url (conversion.redirect origin start url) := by
  -- A URL that is empty, or has nothing pending, or leads there already stays as it is.
  unfold redirect
  split
  · exact .unchanged whole url
  · split
    · exact .unchanged whole url
    · -- Otherwise the old URL is written down, and is put back where it was found.
      exact .changed (by simp only [JournalEntry.undo, found, putBack])

/-- Converting the resource of a batch reverts. -/
theorem reverts_applyToResource (batch : ResourceBatch α) (start : Version)
    (resource : Option Resource) :
    Reverts (fun resource => before ++ { batch with resource } :: after) resource
      (conversion.applyToResource before.length start resource) := by
  -- Only a resource that is present is converted, in its place in the request.
  cases resource with
  | none => exact .unchanged _ none
  | some resource =>
    -- The resource is found at the index of its batch, with the batches around it.
    refine .map (Reverts.mapRecords (carries_resource fun resource => ?_)
      (conversion.schema.reverts_convertResource start resource)) rfl
    simp [resourceAt?, ResourceBatch.resource?, Part.within]

variable {convert : Version → List α → Conversion (List α)}
  (reverts : ∀ start items, Reverts id items (convert start items))

include reverts

/-- Converting a scope batch reverts. -/
theorem reverts_applyToScope [LocalTarget (List α)] (batch : ResourceBatch α)
    (first last : List (ScopeBatch α)) (inherited : Version) (scope : ScopeBatch α) :
    Reverts (fun scope => before ++ { batch with scopes := first ++ scope :: last } :: after) scope
      (conversion.applyToScope convert inherited (.scope before.length first.length) scope) := by
  -- A scope batch has its items converted, and then its URL redirected.
  refine .inSequence ?_ scope
  simp only [List.forall_mem_cons, List.not_mem_nil, false_implies, implies_true, and_true]
  constructor
  · -- The items carry their records over to the request around them.
    intro scope
    refine .map (Reverts.mapRecords (carries_items fun items => ?_) (reverts _ scope.items)) rfl
    simp [itemsAt?, scopeAt?, ResourceBatch.scope?, Part.within, Part.map, ScopeBatch.itemsPart]
  · -- The URL is found at the two indices of the scope batch.
    intro scope
    refine .map (conversion.reverts_redirect (fun url => ?_) _ scope.schemaUrl) rfl
    simp [RollbackTarget.schemaUrl?, scopeAt?, ResourceBatch.scope?, Part.within, Part.map,
      ScopeBatch.urlPart]

/-- Converting a resource batch reverts. -/
theorem reverts_applyToBatch [LocalTarget (List α)] (batch : ResourceBatch α) :
    Reverts (fun batch => before ++ batch :: after) batch
      (conversion.applyToBatch convert before.length batch) := by
  -- A batch takes three steps, on three of its fields.
  refine .inSequence ?_ batch
  simp only [List.forall_mem_cons, List.not_mem_nil, false_implies, implies_true, and_true]
  refine ⟨fun batch => ?_, fun batch => ?_, fun batch => ?_⟩
  · -- The resource comes first.
    exact .map (conversion.reverts_applyToResource before after batch _ batch.resource) rfl
  · -- Then the scope batches are converted one by one, each in its place.
    exact .map (.forEach (fun first scope last =>
      conversion.reverts_applyToScope before after reverts batch first last _ scope)
      batch.scopes) rfl
  · -- The URL of the batch is the last thing that changes.
    refine .map (conversion.reverts_redirect (fun url => ?_) _ batch.schemaUrl) rfl
    simp [RollbackTarget.schemaUrl?, Part.within, ResourceBatch.urlPart]

/-- Converting the batches of a request reverts. -/
theorem reverts_applyToBatches [LocalTarget (List α)] (batches : List (ResourceBatch α)) :
    Reverts id batches (conversion.applyToBatches convert batches) :=
  .forEach (fun before batch after => conversion.reverts_applyToBatch before after reverts batch)
    batches

omit reverts

/-- Converting a request reverts. -/
theorem reverts_convert (request : ExportRequest) :
    Reverts id request (conversion.convert request) := by
  -- The counts are no part of what has to be put back.
  rw [convert_eq_applyTo]
  -- The signals differ in how they convert the items of a scope batch.
  cases request with
  | traces batches =>
    exact .carried carries_traces (conversion.reverts_applyToBatches
      conversion.schema.reverts_convertSpans batches)
  | metrics batches =>
    exact .carried carries_metrics (conversion.reverts_applyToBatches
      conversion.schema.reverts_convertMetrics batches)
  | logs batches =>
    exact .carried carries_logs (conversion.reverts_applyToBatches
      conversion.schema.reverts_convertLogs batches)

end RequestConversion

/-! ### Sessions -/

namespace Session

/-- A conversion adds records to the journal that still restore the request of the start. -/
theorem restores_convert {session : Session} {start : ExportRequest}
    (restores : Restores session.journal.records session.request start)
    (conversion : RequestConversion) :
    Restores (session.convert conversion).journal.records (session.convert conversion).request
      start :=
  Restores.append (conversion.reverts_convert session.request) restores

/-- The journal of a session restores the request of its start after any run of conversions. -/
theorem restores_foldl_convert {session : Session} {start : ExportRequest}
    (restores : Restores session.journal.records session.request start)
    (conversions : List RequestConversion) :
    Restores (conversions.foldl convert session).journal.records
      (conversions.foldl convert session).request start := by
  -- The induction takes one conversion after the other, be it complete or not.
  induction conversions generalizing session with
  | nil => exact restores
  | cons conversion rest ih => exact ih (restores_convert restores conversion)

/-- Rolling back a session once, after any conversions with any outcomes, gives back the request
that it started with, and finds the place of every change in its journal. -/
theorem rollback_foldl_convert (request : ExportRequest) (conversions : List RequestConversion) :
    (conversions.foldl convert (start request)).rollback =
      (start request, (conversions.foldl convert (start request)).journal.size) := by
  -- The journal of a new session is empty and restores the request as it is.
  have fresh : Restores (start request).journal.records (start request).request request := rfl
  have restores := restores_foldl_convert fresh conversions
  -- All that is known of the session by now is that its journal restores the request.
  generalize conversions.foldl convert (start request) = session at restores ⊢
  have rolledBack : session.journal.rollback session.request = (request, session.journal.size) :=
    restores.rollback
  simp only [rollback, rolledBack, start]

end Session

end SchemaUplift
