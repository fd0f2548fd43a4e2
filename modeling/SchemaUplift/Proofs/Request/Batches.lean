import SchemaUplift.Proofs.Interpretation.Success
import SchemaUplift.Proofs.Request.Counts
import SchemaUplift.Proofs.Schema.Versions

/-! Conversion of requests batch by batch: each resource and each list of items is converted from
the version that its batch tells or inherits, and the URLs of older data come to name the latest
version. -/

namespace SchemaUplift

/-! ### The latest version -/

namespace Schema

/-- Data has steps left to take exactly if it is older than the latest version. -/
theorem isLatest_eq (schema : Schema) (start : Version) :
    schema.isLatest start = !schema.latest?.any (start < ·) := by
  -- Both sides ask for newer versions: among all steps, and for the last one alone.
  rw [isLatest, pending_eq_filter, latest?]
  cases last : schema.versions.getLast? with
  | none => simp [List.getLast?_eq_none_iff.1 last]
  | some step =>
    obtain ⟨earlier, split⟩ := List.getLast?_eq_some_iff.1 last
    -- The last step is to a newer version than all others.
    have ascending := schema.ascending
    rw [split, List.pairwise_append] at ascending
    rw [split, Bool.eq_iff_iff]
    by_cases older : start < step.version
    · simp [older]
    · -- No step is to a newer version than the last one.
      have others : ∀ other ∈ earlier, ¬ start < other.version := fun other member newer =>
        older (Version.lt_of_lt_of_le newer (ascending.2.2 other member step (by simp)))
      simpa [older] using others

/-- The URL of data at version `start` after its conversion: the schema's own if URLs are redirected
and the data was older than the latest version, but no URL where there was none. -/
def redirected (schema : Schema) (redirects : Bool) (start : Version) (url : String) : String :=
  match schema.schemaUrl with
  | some target =>
    if redirects && !url.isEmpty && schema.latest?.any (start < ·) then target else url
  | none => url

end Schema

/-- The version that a schema URL tells: the one that it spells, else the inherited one. -/
def Version.toldBy (url : String) (inherited : Version) : Version :=
  if url.isEmpty then inherited else (Version.ofSchemaUrl? url).getD inherited

/-! ### Batches -/

section Batches

variable {α : Type} (tell : String → Version → Version) (redirect : Version → String → String)
  (convert : Version → List α → Conversion (List α))

/-- What becomes of a scope batch that inherits a version, if its conversion succeeds. `tell` gives
the version for a URL, and `redirect` the URL after conversion from a version. -/
def ScopeBatch.settled? (inherited : Version) (batch : ScopeBatch α) : Option (ScopeBatch α) :=
  let start := tell batch.schemaUrl inherited
  (convert start batch.items).success?.map fun items =>
    { batch with items, schemaUrl := redirect start batch.schemaUrl }

/-- What becomes of a resource batch, if all its conversions succeed. -/
def ResourceBatch.settled? (schema : Schema) (fallback : Version) (batch : ResourceBatch α) :
    Option (ResourceBatch α) := do
  let start := tell batch.schemaUrl fallback
  let resource ← batch.resource.mapM fun resource =>
    (schema.convertResource start resource).success?
  let scopes ← batch.scopes.mapM (ScopeBatch.settled? tell redirect convert start)
  return ⟨resource, redirect start batch.schemaUrl, scopes⟩

end Batches

/-- What becomes of a request, if all conversions of its batches succeed. -/
def ExportRequest.settled? (schema : Schema) (fallback : Version)
    (tell : String → Version → Version) (redirect : Version → String → String) :
    ExportRequest → Option ExportRequest
  | .traces batches => (batches.mapM (ResourceBatch.settled? tell redirect schema.convertSpans
      schema fallback)).map .traces
  | .metrics batches => (batches.mapM (ResourceBatch.settled? tell redirect schema.convertMetrics
      schema fallback)).map .metrics
  | .logs batches => (batches.mapM (ResourceBatch.settled? tell redirect schema.convertLogs
      schema fallback)).map .logs

namespace RequestConversion

/-! ### One conversion -/

/-- The URL of data at version `start` after its conversion. -/
def urlAfter (conversion : RequestConversion) (start : Version) (url : String) : String :=
  match conversion.target with
  | none => url
  | some target => if url.isEmpty || conversion.schema.isLatest start then url else target

/-- Redirecting a URL never fails. -/
theorem success?_redirect (conversion : RequestConversion) (origin : Origin) (start : Version)
    (url : String) :
    (conversion.redirect origin start url).success? = some (conversion.urlAfter start url) := by
  -- A URL that already is the target is the same either way.
  rw [redirect, urlAfter]
  cases conversion.target with
  | none => rfl
  | some target =>
    by_cases same : url = target <;> by_cases void : url.isEmpty <;>
      cases conversion.schema.isLatest start <;> simp [same, void]

/-- A resource is converted from the version of its batch. -/
theorem success?_applyToResource (conversion : RequestConversion) (index : Nat) (start : Version)
    (resource : Option Resource) :
    (conversion.applyToResource index start resource).success? = resource.mapM fun resource =>
      (conversion.schema.convertResource start resource).success? := by
  -- A batch without a resource has nothing to convert.
  cases resource with
  | none => rfl
  | some resource => simp [applyToResource]

section Batches

variable {α : Type} (conversion : RequestConversion)
  (convert : Version → List α → Conversion (List α))

/-- A scope batch is converted from the version that it tells or inherits, before its URL is
redirected. -/
theorem success?_applyToScope (inherited : Version) (origin : Origin) (batch : ScopeBatch α) :
    (conversion.applyToScope convert inherited origin batch).success? =
      batch.settled? conversion.versionOf conversion.urlAfter convert inherited := by
  -- The version is told by the old URL on both sides, and the new URL comes last.
  simp only [applyToScope, ScopeBatch.settled?, Attempt.success?_inSequence, List.map_cons,
    List.map_nil, inOrder, Attempt.success?_map, Attempt.success?_mapRecords, success?_redirect]
  cases (convert (conversion.versionOf batch.schemaUrl inherited) batch.items).success? <;> rfl

/-- A resource batch passes its version on to its scopes before its URL is redirected. -/
theorem success?_applyToBatch (index : Nat) (batch : ResourceBatch α) :
    (conversion.applyToBatch convert index batch).success? =
      batch.settled? conversion.versionOf conversion.urlAfter convert conversion.schema
        conversion.fallback := by
  -- All scopes inherit the version that the batch tells.
  have scopes (place : Nat) (scope : ScopeBatch α) :=
    conversion.success?_applyToScope convert
      (conversion.versionOf batch.schemaUrl conversion.fallback) (.scope index place) scope
  simp only [applyToBatch, ResourceBatch.settled?, Attempt.success?_inSequence, List.map_cons,
    List.map_nil, inOrder, Attempt.success?_map, success?_applyToResource, success?_redirect,
    Attempt.success?_forEach scopes]
  -- A failure on the resource or on a scope leaves nothing on either side.
  cases batch.resource.mapM fun resource => (conversion.schema.convertResource
      (conversion.versionOf batch.schemaUrl conversion.fallback) resource).success? with
  | none => rfl
  | some resource =>
    simp only [Option.map_some, Option.bind_some, Option.bind_eq_bind, Option.pure_def]
    cases batch.scopes.mapM (ScopeBatch.settled? conversion.versionOf conversion.urlAfter convert
      (conversion.versionOf batch.schemaUrl conversion.fallback)) <;> rfl

end Batches

/-- A request is converted batch by batch. -/
theorem success?_convert (conversion : RequestConversion) (request : ExportRequest) :
    (conversion.convert request).success? =
      request.settled? conversion.schema conversion.fallback conversion.versionOf
        conversion.urlAfter := by
  -- The signals differ in how they convert items, and each converts batch by batch.
  rw [convert_eq_applyTo]
  cases request <;>
    simp only [applyTo, applyToBatches, Attempt.success?_map,
      Attempt.success?_forEach (conversion.success?_applyToBatch _), ExportRequest.settled?]

/-- A caller is told the counts of a request exactly if its conversion succeeds. -/
theorem result_eq_ok_iff (conversion : RequestConversion) (request : ExportRequest)
    (stats : Stats) : conversion.result request = .ok stats ↔
      (conversion.convert request).success? = some (conversion.convert request).value ∧
        stats = request.counts := by
  -- The outcome is the counts where there is no failure, and the failure otherwise.
  rw [result_eq_outcome, Attempt.outcome, Attempt.success?]
  cases (conversion.convert request).failure <;> simp [eq_comm]

/-! ### Conversions by URL and from the first version -/

/-- URLs tell the versions of data that is converted by URL. -/
theorem versionOf_byUrl (schema : Schema) (fallback : Version) (redirects : Bool) :
    (byUrl schema fallback redirects).versionOf = Version.toldBy := by
  funext url inherited
  -- A conversion by URL reads the URL, and an empty one tells nothing.
  by_cases void : url.isEmpty <;> simp [versionOf, byUrl, Version.toldBy, void]

/-- URLs of older data are redirected by a conversion by URL that is asked to do so. -/
theorem urlAfter_byUrl (schema : Schema) (fallback : Version) (redirects : Bool) :
    (byUrl schema fallback redirects).urlAfter = schema.redirected redirects := by
  funext start url
  simp only [urlAfter, byUrl, Schema.redirected, Schema.isLatest_eq]
  -- Without a redirect URLs stay, and without a URL of the schema there is nothing to redirect to.
  cases redirects with
  | false => cases schema.schemaUrl <;> rfl
  | true =>
    cases schema.schemaUrl with
    | none => rfl
    | some target =>
      -- A URL is kept on one side exactly if it is not redirected on the other.
      cases url.isEmpty <;> cases schema.latest?.any (start < ·) <;> rfl

/-- A conversion by URL succeeds with some counts exactly if every resource and every list of items
can be converted from the version that its own URL tells, or else the URL of its resource batch, or
else the fallback; the request is then as these conversions leave it, with the URLs of older data
redirected, and the counts are those of the request. A conversion from the first version takes all
data to be at that version, and leaves URLs as they are. -/
theorem result_eq_ok_iff_settled (schema : Schema) (request : ExportRequest) (stats : Stats) :
    (∀ fallback redirects, (byUrl schema fallback redirects).result request = .ok stats ↔
      request.settled? schema fallback Version.toldBy (schema.redirected redirects) =
          some ((byUrl schema fallback redirects).convert request).value ∧
        stats = request.counts) ∧
    ((fromZero schema).result request = .ok stats ↔
      request.settled? schema .zero (fun _ _ => .zero) (fun _ url => url) =
          some ((fromZero schema).convert request).value ∧
        stats = request.counts) := by
  -- Both are the general law with the versions and URLs of the conversion put in.
  constructor
  · -- Versions and URLs are those of a conversion by URL.
    intro fallback redirects
    rw [result_eq_ok_iff, success?_convert, versionOf_byUrl, urlAfter_byUrl]
    rfl
  · -- Every version is the first one, and no URL is redirected.
    rw [result_eq_ok_iff, success?_convert]
    cases request <;> rfl

end RequestConversion

end SchemaUplift
