import SchemaUplift.Proofs.Request.Batches
import SchemaUplift.Proofs.Schema.Path

/-! Converting a request by its URLs leaves every batch at the latest version, so that converting it
again changes nothing. -/

namespace SchemaUplift

/-! ### Data at the latest version -/

namespace Schema

variable {schema : Schema} {start : Version}

/-- No step is left to take from the latest version. -/
theorem pending_of_isLatest (latest : schema.isLatest start = true) : schema.pending start = [] :=
  List.isEmpty_iff.1 latest

/-- A version that the latest one does not exceed has no step left to take. -/
theorem isLatest_of_latest?_le (reached : ∀ latest ∈ schema.latest?, latest ≤ start) :
    schema.isLatest start = true := by
  -- There is no newer version than the latest one, if there is any.
  rw [isLatest_eq]
  cases newest : schema.latest? with
  | none => rfl
  | some latest =>
    have notNewer : ¬ start < latest := by
      intro newer
      exact Version.not_le.2 newer (reached latest newest)
    simpa using notNewer

/-- A resource at the latest version is left alone. -/
theorem convertResource_of_isLatest (latest : schema.isLatest start = true) (resource : Resource) :
    schema.convertResource start resource = .unchanged resource := by
  -- Without a step to take the sequence of passes is empty.
  rw [convertResource, pending_of_isLatest latest]
  rfl

/-- Spans at the latest version are left alone. -/
theorem convertSpans_of_isLatest (latest : schema.isLatest start = true) (spans : List Span) :
    schema.convertSpans start spans = .unchanged spans := by
  rw [convertSpans_eq, pending_of_isLatest latest]
  rfl

/-- Metrics at the latest version are left alone. -/
theorem convertMetrics_of_isLatest (latest : schema.isLatest start = true)
    (metrics : List Metric) : schema.convertMetrics start metrics = .unchanged metrics := by
  rw [convertMetrics_eq, pending_of_isLatest latest]
  rfl

/-- Log records at the latest version are left alone. -/
theorem convertLogs_of_isLatest (latest : schema.isLatest start = true)
    (records : List LogRecord) : schema.convertLogs start records = .unchanged records := by
  rw [convertLogs_eq, pending_of_isLatest latest]
  rfl

end Schema

/-! ### Current batches -/

namespace RequestConversion

variable {α : Type}

/-- A resource batch is current if neither its resource nor any scope of it, which may inherit the
version of the resource, has a step left to take. -/
structure IsCurrent (conversion : RequestConversion) (batch : ResourceBatch α) : Prop where
  /-- The resource is at the latest version. -/
  resource : conversion.schema.isLatest
    (conversion.versionOf batch.schemaUrl conversion.fallback) = true
  /-- So are the items of the scopes. -/
  scopes : ∀ scope ∈ batch.scopes, conversion.schema.isLatest (conversion.versionOf
    scope.schemaUrl (conversion.versionOf batch.schemaUrl conversion.fallback)) = true

variable {conversion : RequestConversion}

/-- The URL of data at the latest version stays. -/
theorem redirect_of_isLatest {start : Version} (latest : conversion.schema.isLatest start = true)
    (origin : Origin) (url : String) : conversion.redirect origin start url = .unchanged url := by
  -- Without a target every URL stays, and with one the version decides.
  rw [redirect]
  cases conversion.target with
  | none => rfl
  | some target => simp [latest]

/-- The resource of a batch at the latest version is left alone. -/
theorem applyToResource_of_isLatest {start : Version}
    (latest : conversion.schema.isLatest start = true) (index : Nat) (resource : Option Resource) :
    conversion.applyToResource index start resource = .unchanged resource := by
  -- Where there is no resource there is nothing to convert.
  cases resource with
  | none => rfl
  | some resource =>
    rw [applyToResource, Schema.convertResource_of_isLatest latest]
    rfl

section Batches

variable {convert : Version → List α → Conversion (List α)}
  (idle : ∀ {start}, conversion.schema.isLatest start = true →
    ∀ items, convert start items = .unchanged items)
include idle

/-- A scope batch at the latest version is left alone. -/
theorem applyToScope_of_isLatest {inherited : Version} {scope : ScopeBatch α}
    (latest : conversion.schema.isLatest (conversion.versionOf scope.schemaUrl inherited) = true)
    (origin : Origin) :
    conversion.applyToScope convert inherited origin scope = .unchanged scope := by
  refine Attempt.inSequence_eq_unchanged ?_
  simp only [List.forall_mem_cons, List.not_mem_nil, false_implies, implies_true, and_true]
  constructor
  · -- The items are left alone, since they are at the latest version.
    rw [idle latest]
    rfl
  · -- So is the URL, for the same reason.
    rw [redirect_of_isLatest latest]
    rfl

/-- A current resource batch is left alone. -/
theorem applyToBatch_of_isCurrent {batch : ResourceBatch α} (current : conversion.IsCurrent batch)
    (index : Nat) : conversion.applyToBatch convert index batch = .unchanged batch := by
  refine Attempt.inSequence_eq_unchanged ?_
  simp only [List.forall_mem_cons, List.not_mem_nil, false_implies, implies_true, and_true]
  -- The resource, the scopes and the URL each pass the batch on as it came.
  refine ⟨?_, ?_, ?_⟩
  · -- The resource is at the latest version by the URL of the batch.
    rw [applyToResource_of_isLatest current.resource]
    rfl
  · -- So is each scope by its own URL, or by that of the batch.
    rw [Attempt.forEach_eq_unchanged fun place scope member =>
      applyToScope_of_isLatest idle (current.scopes scope member) (.scope index place)]
    rfl
  · -- The URL of the batch is not redirected.
    rw [redirect_of_isLatest current.resource]
    rfl

/-- Current resource batches are left alone. -/
theorem applyToBatches_of_isCurrent {batches : List (ResourceBatch α)}
    (current : ∀ batch ∈ batches, conversion.IsCurrent batch) :
    conversion.applyToBatches convert batches = .unchanged batches :=
  Attempt.forEach_eq_unchanged fun index batch member =>
    applyToBatch_of_isCurrent idle (current batch member) index

end Batches

/-! ### Conversions that lead to the latest version -/

/-- A conversion that reads URLs and redirects them to one that spells the latest version, or a
newer one. -/
structure Settles (conversion : RequestConversion) : Prop where
  /-- URLs are read. -/
  readsUrls : conversion.readsUrls = true
  /-- The URL that converted data gets spells a version from which no step is left. -/
  target : ∃ target version, conversion.target = some target ∧
    Version.ofSchemaUrl? target = some version ∧ conversion.schema.isLatest version = true

namespace Settles

variable (settles : conversion.Settles)
include settles

/-- Data that gets the target URL is at the latest version from then on. -/
theorem isLatest_versionOf_target {target : String} (aimed : conversion.target = some target)
    (inherited : Version) :
    conversion.schema.isLatest (conversion.versionOf target inherited) = true := by
  obtain ⟨other, version, same, spelled, latest⟩ := settles.target
  obtain rfl : target = other := Option.some.inj (aimed.symm.trans same)
  -- A URL that spells a version is not empty, so it is read.
  have named : target.isEmpty = false := by
    cases void : target.isEmpty with
    | false => rfl
    | true =>
      rw [String.isEmpty_iff.1 void] at spelled
      cases spelled
  simpa [versionOf, settles.readsUrls, named, spelled] using latest

/-- After the conversion a URL that is not empty tells the latest version. -/
theorem isLatest_versionOf_urlAfter {url : String} (named : url.isEmpty = false)
    (inherited : Version) : conversion.schema.isLatest (conversion.versionOf
      (conversion.urlAfter (conversion.versionOf url inherited) url) inherited) = true := by
  -- The URL is compared with the target that the conversion aims at.
  obtain ⟨target, version, aimed, -, -⟩ := settles.target
  rw [urlAfter, aimed]
  -- Either the data was at the latest version before, and the URL stays, or it is redirected.
  cases already : conversion.schema.isLatest (conversion.versionOf url inherited) with
  | true => simpa [named] using already
  | false => simpa [named] using settles.isLatest_versionOf_target aimed inherited

/-- After the conversion every URL tells the latest version where the latest version is inherited,
whatever was inherited before: also an empty URL, or one that spells no version. -/
theorem isLatest_versionOf_urlAfter_of_inherited {inherited : Version}
    (latest : conversion.schema.isLatest inherited = true) (before : Version) (url : String) :
    conversion.schema.isLatest (conversion.versionOf
      (conversion.urlAfter (conversion.versionOf url before) url) inherited) = true := by
  obtain ⟨target, version, aimed, -, -⟩ := settles.target
  rw [urlAfter, aimed]
  -- An empty URL inherits a version, which is the latest one.
  by_cases void : url.isEmpty
  · simpa [versionOf, void] using latest
  · cases already : conversion.schema.isLatest (conversion.versionOf url before) with
    | false => simpa [void] using settles.isLatest_versionOf_target aimed inherited
    | true =>
      -- The URL stays. What it spells is the latest version already, and else nothing is spelled.
      cases spelled : Version.ofSchemaUrl? url with
      | none => simpa [versionOf, void, spelled] using latest
      | some told => simpa [versionOf, void, spelled, settles.readsUrls] using already

/-- What becomes of a resource batch with a URL is current. -/
theorem isCurrent_of_settled? {convert : Version → List α → Conversion (List α)}
    {batch result : ResourceBatch α} (named : batch.schemaUrl.isEmpty = false)
    (success : batch.settled? conversion.versionOf conversion.urlAfter convert conversion.schema
      conversion.fallback = some result) : conversion.IsCurrent result := by
  simp only [ResourceBatch.settled?, Option.bind_eq_bind, Option.bind_eq_some_iff,
    Option.pure_def, Option.some.injEq] at success
  obtain ⟨resource, -, scopes, converted, rfl⟩ := success
  -- The URL of the batch tells the latest version by now, so the resource is settled.
  have reached := settles.isLatest_versionOf_urlAfter named conversion.fallback
  refine ⟨reached, ?_⟩
  intro scope member
  -- Each scope inherits what the URL of its batch tells by now, which is the latest version.
  obtain ⟨origin, -, made⟩ := exists_of_mem_mapM converted member
  simp only [ScopeBatch.settled?, Option.map_eq_some_iff] at made
  obtain ⟨items, -, rfl⟩ := made
  exact settles.isLatest_versionOf_urlAfter_of_inherited reached _ origin.schemaUrl

/-- What becomes of resource batches with URLs is left alone from then on. -/
theorem applyToBatches_of_settled? {convert : Version → List α → Conversion (List α)}
    (idle : ∀ {start}, conversion.schema.isLatest start = true →
      ∀ items, convert start items = .unchanged items)
    {batches results : List (ResourceBatch α)}
    (named : ∀ batch ∈ batches, batch.schemaUrl.isEmpty = false)
    (success : batches.mapM (ResourceBatch.settled? conversion.versionOf conversion.urlAfter
      convert conversion.schema conversion.fallback) = some results) :
    conversion.applyToBatches convert results = .unchanged results := by
  refine applyToBatches_of_isCurrent idle ?_
  -- Each batch that is left comes from one of the batches converted.
  intro result member
  obtain ⟨batch, within, made⟩ := exists_of_mem_mapM success member
  exact settles.isCurrent_of_settled? (named batch within) made

end Settles

end RequestConversion

/-- The schema URLs of the resource batches of a request. -/
def ExportRequest.batchUrls : ExportRequest → List String
  | .traces batches => batches.map (·.schemaUrl)
  | .metrics batches => batches.map (·.schemaUrl)
  | .logs batches => batches.map (·.schemaUrl)

namespace RequestConversion

/-- A conversion that leads to the latest version, and succeeds on a request whose resource batches
all have URLs, leaves nothing to be changed by another one. -/
theorem Settles.convert_of_success? {conversion : RequestConversion}
    (settles : conversion.Settles) {request result : ExportRequest}
    (named : ∀ url ∈ request.batchUrls, url.isEmpty = false)
    (success : (conversion.convert request).success? = some result) :
    conversion.convert result = .unchanged result := by
  rw [success?_convert] at success
  -- The signals differ in how they convert the items of a scope batch.
  cases request with
  | traces batches =>
    obtain ⟨results, made, rfl⟩ := Option.map_eq_some_iff.1 success
    rw [convert_eq_applyTo, applyTo, settles.applyToBatches_of_settled?
      Schema.convertSpans_of_isLatest (List.forall_mem_map.1 named) made]
    rfl
  | metrics batches =>
    obtain ⟨results, made, rfl⟩ := Option.map_eq_some_iff.1 success
    rw [convert_eq_applyTo, applyTo, settles.applyToBatches_of_settled?
      Schema.convertMetrics_of_isLatest (List.forall_mem_map.1 named) made]
    rfl
  | logs batches =>
    obtain ⟨results, made, rfl⟩ := Option.map_eq_some_iff.1 success
    rw [convert_eq_applyTo, applyTo, settles.applyToBatches_of_settled?
      Schema.convertLogs_of_isLatest (List.forall_mem_map.1 named) made]
    rfl

/-- Converting twice is converting once. If a schema declares a URL that spells its latest version,
or a newer one, and every resource batch of a request has a URL, then a conversion by URL that
redirects and succeeds leaves a request that a second such conversion passes through successfully,
without a change and without a record. -/
theorem convert_value_convert {schema : Schema} {target : String} {version : Version}
    (declared : schema.schemaUrl = some target)
    (spelled : Version.ofSchemaUrl? target = some version)
    (reached : ∀ latest ∈ schema.latest?, latest ≤ version) (fallback : Version)
    {request : ExportRequest} (named : ∀ url ∈ request.batchUrls, url ≠ "") {stats : Stats}
    (success : (byUrl schema fallback true).result request = .ok stats) :
    (byUrl schema fallback true).convert ((byUrl schema fallback true).convert request).value =
        .unchanged ((byUrl schema fallback true).convert request).value ∧
      (byUrl schema fallback true).result ((byUrl schema fallback true).convert request).value =
        .ok ((byUrl schema fallback true).convert request).value.counts := by
  -- The schema aims at a URL that spells its latest version, and the conversion reads URLs.
  have settles : (byUrl schema fallback true).Settles :=
    ⟨rfl, target, version, declared, spelled, Schema.isLatest_of_latest?_le reached⟩
  -- A first conversion with counts is one that succeeds.
  have left := ((byUrl schema fallback true).result_eq_ok_iff request stats).1 success
  have again := settles.convert_of_success?
    (fun url member => by simpa using named url member) left.1
  -- The second conversion succeeds too, and counts what it is given.
  refine ⟨again, (result_eq_ok_iff _ _ _).2 ⟨?_, rfl⟩⟩
  rw [again]
  rfl

/-- A schema whose only step, to version 1.1.0, renames an attribute of log records. -/
def messages : Schema where
  versions := [{ VersionStep.empty ⟨[1, 1, 0], "1.1.0"⟩ with logs := [.ofList [("m", "message")]] }]
  schemaUrl := some "https://opentelemetry.io/schemas/1.1.0/"
  ascending := List.pairwise_singleton _ _

/-- A request with log records in four scopes: one tells an older version than its resource batch,
one a newer version, one no version, and one has a URL that spells none. -/
def manyScopes : ExportRequest :=
  let record : LogRecord := ⟨0, 0, "", .absent, [⟨"m", .string "x"⟩], ""⟩
  .logs [⟨none, "https://opentelemetry.io/schemas/1.0.0",
    [⟨none, "https://opentelemetry.io/schemas/0.9", [record]⟩,
      ⟨none, "https://opentelemetry.io/schemas/1.2", [record]⟩, ⟨none, "", [record]⟩,
      ⟨none, "https://example.com/none", [record]⟩]⟩]

/-- The first conversion renames a key in three scopes and redirects three URLs, and the second one
leaves all that alone. -/
theorem convert_value_convert_manyScopes :
    ((byUrl messages .zero true).convert manyScopes).records.length = 6 ∧
      (byUrl messages .zero true).convert ((byUrl messages .zero true).convert manyScopes).value =
        .unchanged ((byUrl messages .zero true).convert manyScopes).value ∧
      (byUrl messages .zero true).result ((byUrl messages .zero true).convert manyScopes).value =
        .ok ((byUrl messages .zero true).convert manyScopes).value.counts := by
  -- The URL of the schema spells a version that is at least the latest one.
  have read : (Version.ofSchemaUrl? "https://opentelemetry.io/schemas/1.1.0/").any
      (Version.atMost ⟨[1, 1, 0], "1.1.0"⟩) = true := by decide +kernel
  obtain ⟨version, spelled, newer⟩ := (Option.any_eq_true _ _).1 read
  have reached : ∀ latest ∈ messages.latest?, latest ≤ version := by
    rintro latest ⟨⟩
    exact newer
  -- No URL of a batch is empty.
  have named : ∀ url ∈ manyScopes.batchUrls, url ≠ "" := by
    simp [manyScopes, ExportRequest.batchUrls]
  obtain ⟨stats, success⟩ : ∃ stats, (byUrl messages .zero true).result manyScopes = .ok stats :=
    Except.exists_of_isOk (by decide +kernel)
  exact ⟨by decide +kernel, convert_value_convert rfl spelled reached .zero named success⟩

end RequestConversion

end SchemaUplift
