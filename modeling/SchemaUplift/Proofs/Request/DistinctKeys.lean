import SchemaUplift.Proofs.Request.Batches
import SchemaUplift.Proofs.Rule.DistinctKeys
import SchemaUplift.Proofs.Schema.Path

/-! Converting a request in which no attributes repeat a key leaves one in which none do, if the
conversion succeeds. -/

namespace SchemaUplift

/-! ### From version to version -/

/-- The keys of a resource are distinct. -/
def Resource.HasDistinctKeys (resource : Resource) : Prop := resource.attributes.HasDistinctKeys

/-- The keys of a log record are distinct. -/
def LogRecord.HasDistinctKeys (record : LogRecord) : Prop := record.attributes.HasDistinctKeys

namespace RenameTable

/-- A table keeps the keys of a resource distinct. -/
theorem keeps_convertResource (table : RenameTable) :
    Keeps Resource.HasDistinctKeys fun resource => (table.convertResource resource).success? := by
  intro resource result distinct success
  -- The step succeeds where the rename of the attributes does.
  simp only [success?_convertResource, Option.map_eq_some_iff] at success
  obtain ⟨attributes, renamed, rfl⟩ := success
  exact hasDistinctKeys_of_rename? distinct renamed

/-- A table keeps the keys of a log record distinct. -/
theorem keeps_convertLogRecord (index : Nat) (table : RenameTable) :
    Keeps LogRecord.HasDistinctKeys fun record =>
      (table.convertLogRecord index record).success? := by
  intro record result distinct success
  -- As with a resource, the attributes decide.
  simp only [success?_convertLogRecord, Option.map_eq_some_iff] at success
  obtain ⟨attributes, renamed, rfl⟩ := success
  exact hasDistinctKeys_of_rename? distinct renamed

end RenameTable

namespace Schema

variable (schema : Schema) (start : Version)

/-- A resource keeps its keys distinct. -/
theorem keeps_convertResource :
    Keeps Resource.HasDistinctKeys fun resource =>
      (schema.convertResource start resource).success? := by
  -- Each step is a sequence of tables.
  refine Keeps.inSequence ?_ (schema.pending start)
  intro step
  exact Keeps.inSequence RenameTable.keeps_convertResource step.resource

/-- Spans and their events keep their keys distinct. -/
theorem keeps_convertSpans :
    Keeps (∀ span ∈ ·, Span.HasDistinctKeys span)
      fun spans => (schema.convertSpans start spans).success? := by
  -- Each pending step has one pass for spans and their events.
  rw [convertSpans_eq]
  refine Keeps.inSequence ?_ (schema.pending start)
  intro step
  exact step.spans.keeps_hasDistinctKeys

/-- The points of metrics keep their keys distinct. -/
theorem keeps_convertMetrics :
    Keeps (∀ metric ∈ ·, Metric.HasDistinctKeys metric)
      fun metrics => (schema.convertMetrics start metrics).success? := by
  -- Each pending step has one plan of stages.
  rw [convertMetrics_eq]
  refine Keeps.inSequence ?_ (schema.pending start)
  intro step
  exact step.metrics.keeps_hasDistinctKeys

/-- Log records keep their keys distinct. -/
theorem keeps_convertLogs :
    Keeps (∀ record ∈ ·, LogRecord.HasDistinctKeys record)
      fun records => (schema.convertLogs start records).success? := by
  -- Each pending step has one list of tables.
  rw [convertLogs_eq]
  refine Keeps.inSequence ?_ (schema.pending start)
  intro step
  -- A step takes each record through all its tables before it goes on to the next one.
  refine Keeps.forEach ?_
  intro index
  exact Keeps.inSequence (RenameTable.keeps_convertLogRecord index) step.logs

end Schema

/-! ### Requests -/

/-- The resource of a batch has distinct keys, and `ofItem` holds of all its items. -/
structure ResourceBatch.HasDistinctKeys {α : Type} (ofItem : α → Prop)
    (batch : ResourceBatch α) : Prop where
  /-- The keys of the resource are distinct, if there is one. -/
  resource : ∀ resource ∈ batch.resource, resource.HasDistinctKeys
  /-- So are those of the items of every scope. -/
  items : ∀ scope ∈ batch.scopes, ∀ item ∈ scope.items, ofItem item

/-- Every resource, span, span event, metric data point and log record of a request has distinct
attribute keys. -/
def ExportRequest.HasDistinctKeys : ExportRequest → Prop
  | .traces batches => ∀ batch ∈ batches, batch.HasDistinctKeys Span.HasDistinctKeys
  | .metrics batches => ∀ batch ∈ batches, batch.HasDistinctKeys Metric.HasDistinctKeys
  | .logs batches => ∀ batch ∈ batches, batch.HasDistinctKeys LogRecord.HasDistinctKeys

/-- A batch keeps keys distinct if the conversion of its items does, from whatever version. -/
theorem ResourceBatch.keeps_settled? {α : Type} {ofItem : α → Prop}
    {convert : Version → List α → Conversion (List α)}
    (keeps : ∀ start, Keeps (∀ item ∈ ·, ofItem item) fun items => (convert start items).success?)
    (tell : String → Version → Version) (redirect : Version → String → String) (schema : Schema)
    (fallback : Version) :
    Keeps (HasDistinctKeys ofItem) (settled? tell redirect convert schema fallback) := by
  intro batch result distinct success
  -- Where all conversions of the batch succeed, the batch is made of what each of them leaves.
  simp only [settled?, Option.bind_eq_bind, Option.bind_eq_some_iff, Option.pure_def,
    Option.some.injEq] at success
  obtain ⟨resource, converted, scopes, convertedScopes, rfl⟩ := success
  constructor
  · rintro changed ⟨⟩
    -- A resource comes from one that the batch had.
    cases before : batch.resource with
    | none => simp [before] at converted
    | some origin =>
      have success : (schema.convertResource (tell batch.schemaUrl fallback) origin).success? =
          some changed := by simpa [before] using converted
      exact schema.keeps_convertResource _ (distinct.resource origin before) success
  · -- An item comes from the items of the scope that its scope was.
    intro scope member
    obtain ⟨origin, within, made⟩ := exists_of_mem_mapM convertedScopes member
    simp only [ScopeBatch.settled?, Option.map_eq_some_iff] at made
    obtain ⟨items, success, rfl⟩ := made
    exact keeps _ (distinct.items origin within) success

namespace RequestConversion

/-- A conversion that succeeds keeps attribute keys distinct: if no resource, span, span event,
metric data point or log record of a request repeats a key, then none of the converted request
does. -/
theorem hasDistinctKeys_convert (conversion : RequestConversion) {request : ExportRequest}
    (distinct : request.HasDistinctKeys) {stats : Stats}
    (success : conversion.result request = .ok stats) :
    (conversion.convert request).value.HasDistinctKeys := by
  -- A conversion with counts is one that succeeds, batch by batch.
  obtain ⟨made, -⟩ := (conversion.result_eq_ok_iff request stats).1 success
  rw [success?_convert] at made
  -- The signals differ in what keeps the keys of their items distinct.
  cases request with
  | traces batches =>
    obtain ⟨results, converted, same⟩ := Option.map_eq_some_iff.1 made
    rw [← same]
    exact (ResourceBatch.keeps_settled? conversion.schema.keeps_convertSpans
      _ _ _ _).mapM distinct converted
  | metrics batches =>
    obtain ⟨results, converted, same⟩ := Option.map_eq_some_iff.1 made
    rw [← same]
    exact (ResourceBatch.keeps_settled? conversion.schema.keeps_convertMetrics
      _ _ _ _).mapM distinct converted
  | logs batches =>
    obtain ⟨results, converted, same⟩ := Option.map_eq_some_iff.1 made
    rw [← same]
    exact (ResourceBatch.keeps_settled? conversion.schema.keeps_convertLogs
      _ _ _ _).mapM distinct converted

/-- A schema whose only step swaps two attribute keys of data points and then merges two metrics. -/
def swapping : Schema where
  versions := [{ VersionStep.empty ⟨[1, 1, 0], "1.1.0"⟩ with
    metrics := ⟨[
      .pass ⟨[.renameAttributes ∅ (.ofList [("from", "to"), ("to", "from")])]⟩,
      .merge ⟨"traffic", "direction", .ofList [("received", "in"), ("sent", "out")]⟩]⟩ }]
  schemaUrl := none
  ascending := List.pairwise_singleton _ _

/-- A request with both metrics, the point of one with both keys and that of the other with one. -/
def exchanged : ExportRequest :=
  let metric (name : String) (attributes : Attributes) : Metric :=
    ⟨name, "", "By", [], some (.numbers .gauge [⟨attributes, 0, 1, 0, some (.int 5)⟩])⟩
  .metrics [⟨none, "", [⟨none, "", [
    metric "received" [⟨"from", .string "a"⟩, ⟨"to", .string "b"⟩],
    metric "sent" [⟨"from", .string "a"⟩]]⟩]⟩]

/-- Two points get new keys, all metrics are replaced, and then each point has distinct keys. -/
theorem hasDistinctKeys_convert_exchanged : exchanged.HasDistinctKeys ∧
    ((fromZero swapping).convert exchanged).records.length = 3 ∧
      ((fromZero swapping).convert exchanged).value.HasDistinctKeys := by
  -- Of the two points one has two keys, and they are not the same.
  have distinct : exchanged.HasDistinctKeys := by
    intro batch member
    obtain rfl := List.mem_singleton.1 member
    refine ⟨by simp, ?_⟩
    simp [Metric.HasDistinctKeys, Metric.attributeLists, MetricData.attributeLists,
      Attributes.HasDistinctKeys]
  -- The conversion succeeds, as evaluation shows.
  obtain ⟨stats, success⟩ : ∃ stats, (fromZero swapping).result exchanged = .ok stats :=
    Except.exists_of_isOk (by decide +kernel)
  exact ⟨distinct, by decide +kernel, hasDistinctKeys_convert _ distinct success⟩

end RequestConversion

end SchemaUplift
