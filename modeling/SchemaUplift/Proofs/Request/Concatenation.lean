import SchemaUplift.Proofs.Attempt
import SchemaUplift.Proofs.Request.Batches
import SchemaUplift.Proofs.Request.Reversal

/-! Requests put together: what a conversion makes of the batches of one request followed by those
of another is what it makes of the two requests, as long as the first one succeeds. -/

namespace SchemaUplift

/-! ### Places further down a request -/

/-- The same place with a number of resource batches put in front. -/
def Origin.shift (count : Nat) : Origin → Origin
  | .here => .here
  | .resource batch => .resource (batch + count)
  | .scope batch index => .scope (batch + count) index

/-- The same address with a number of resource batches put in front. -/
def Address.shift (count : Nat) (address : Address) : Address :=
  { address with origin := address.origin.shift count }

/-- The same record with a number of resource batches put in front. -/
def JournalEntry.shift (count : Nat) : JournalEntry → JournalEntry :=
  relocate (Address.shift count)

/-- A local record is seen from a request as it is where its place stands by then. -/
theorem JournalEntry.shift_within {record : JournalEntry} (isLocal : record.address.IsLocal)
    (count : Nat) (origin : Origin) :
    (record.within origin).shift count = record.within (origin.shift count) := by
  -- A local record has no place yet, so that the place it is given may be shifted before.
  obtain ⟨here, -⟩ := isLocal
  cases record <;>
    · simp only [address] at here
      simp [shift, within, relocate, Address.within, Address.shift, here]

/-- The records of an attempt on telemetry on its own are shifted with the place that it has. -/
theorem Attempt.mapRecords_within_shift {α : Type} {attempt : Conversion α}
    (isLocal : ∀ record ∈ attempt.records, record.address.IsLocal) (count : Nat) (origin : Origin) :
    attempt.mapRecords (JournalEntry.within (origin.shift count)) =
      (attempt.mapRecords (JournalEntry.within origin)).mapRecords (JournalEntry.shift count) := by
  -- Records are compared one by one.
  rw [mapRecords_mapRecords]
  exact mapRecords_congr fun record member =>
    (JournalEntry.shift_within (isLocal record member) count origin).symm

/-! ### Batches further down a request -/

namespace RequestConversion

variable (conversion : RequestConversion) (count : Nat)

/-- A URL is redirected alike further down a request. -/
theorem redirect_shift (origin : Origin) (start : Version) (url : String) :
    conversion.redirect (origin.shift count) start url =
      (conversion.redirect origin start url).mapRecords (.shift count) := by
  -- Whether a URL is redirected does not depend on its place, which only the record tells.
  unfold redirect
  split
  · -- An empty URL stays empty in any place.
    rfl
  · -- A URL of the family is redirected with a record, and any other one is not.
    split <;> rfl

/-- A resource is converted alike further down a request. -/
theorem applyToResource_shift (index : Nat) (start : Version) (resource : Option Resource) :
    conversion.applyToResource (index + count) start resource =
      (conversion.applyToResource index start resource).mapRecords (.shift count) := by
  cases resource with
  | none => rfl
  | some resource =>
    -- A schema knows nothing of requests, so all records of the resource are local.
    exact congrArg (Attempt.map some) (Attempt.mapRecords_within_shift
      (conversion.schema.reverts_convertResource start resource).isLocal count (.resource index))

variable {α : Type} {convert : Version → List α → Conversion (List α)}
  (isLocal : ∀ start items, ∀ record ∈ (convert start items).records, record.address.IsLocal)

include isLocal

/-- A scope batch is converted alike further down a request. -/
theorem applyToScope_shift (inherited : Version) (origin : Origin) (scope : ScopeBatch α) :
    conversion.applyToScope convert inherited (origin.shift count) scope =
      (conversion.applyToScope convert inherited origin scope).mapRecords (.shift count) := by
  -- The records of the items are local, and that of the URL has the place of the scope.
  simp only [applyToScope, Attempt.mapRecords_inSequence, List.map_cons, List.map_nil,
    redirect_shift, Attempt.mapRecords_within_shift (isLocal _ _)]
  rfl

/-- A resource batch is converted alike further down a request. -/
theorem applyToBatch_shift (index : Nat) (batch : ResourceBatch α) :
    conversion.applyToBatch convert (index + count) batch =
      (conversion.applyToBatch convert index batch).mapRecords (.shift count) := by
  -- The scopes keep their indices, as their batch alone is further down.
  have scopes (inherited : Version) (scopes : List (ScopeBatch α)) :
      Attempt.forEach (fun scope => conversion.applyToScope convert inherited
          (.scope (index + count) scope)) scopes =
        (Attempt.forEach (fun scope => conversion.applyToScope convert inherited
          (.scope index scope)) scopes).mapRecords (.shift count) :=
    Attempt.mapRecords_forEachFrom 0 (fun scope =>
      conversion.applyToScope_shift count isLocal inherited (.scope index scope)) 0 scopes
  simp only [applyToBatch, Attempt.mapRecords_inSequence, List.map_cons, List.map_nil,
    applyToResource_shift, scopes]
  rw [show Origin.resource (index + count) = (Origin.resource index).shift count from rfl]
  simp only [redirect_shift]
  rfl

/-- After a success on the first batches the others are converted as on their own, further down. -/
theorem applyToBatches_append_of_success {first : List (ResourceBatch α)}
    -- The batches are told apart from the first ones by the positions at which they are counted.
    (passed : (conversion.applyToBatches convert first).failure = none)
    (second : List (ResourceBatch α)) :
    conversion.applyToBatches convert (first ++ second) =
      let begun := conversion.applyToBatches convert first
      let rest := (conversion.applyToBatches convert second).mapRecords (.shift first.length)
      ⟨begun.value ++ rest.value, begun.records ++ rest.records, rest.failure⟩ := by
  have shifted := Attempt.mapRecords_forEachFrom first.length
    (conversion.applyToBatch_shift first.length isLocal) 0 second
  rw [applyToBatches, Attempt.forEach] at passed ⊢
  -- The walk over the other batches starts to count where the one over the first batches ends.
  rw [Attempt.forEachFrom_append, shifted]
  simp only [passed]

omit isLocal

/-- After a failure on the first batches the others are left alone. -/
theorem applyToBatches_append_of_failure {first : List (ResourceBatch α)} {cause : ConversionError}
    (failed : (conversion.applyToBatches convert first).failure = some cause)
    (second : List (ResourceBatch α)) :
    conversion.applyToBatches convert (first ++ second) =
      (conversion.applyToBatches convert first).map (· ++ second) := by
  -- The walk over the first batches ends, and the others are put behind what it leaves.
  rw [applyToBatches, Attempt.forEach] at failed ⊢
  rw [Attempt.forEachFrom_append]
  simp only [failed]

end RequestConversion

/-! ### Requests put together -/

namespace ExportRequest

/-- The third request has the batches of the first one followed by those of the second one, and all
are of one signal. -/
inductive Joins : ExportRequest → ExportRequest → ExportRequest → Prop where
  /-- Traces are joined to traces. -/
  | traces (first second : List (ResourceBatch Span)) :
    Joins (.traces first) (.traces second) (.traces (first ++ second))
  /-- Metrics are joined to metrics. -/
  | metrics (first second : List (ResourceBatch Metric)) :
    Joins (.metrics first) (.metrics second) (.metrics (first ++ second))
  /-- Logs are joined to logs. -/
  | logs (first second : List (ResourceBatch LogRecord)) :
    Joins (.logs first) (.logs second) (.logs (first ++ second))

/-- The number of resource batches in a request. -/
def batchCount : ExportRequest → Nat
  | .traces batches => batches.length
  | .metrics batches => batches.length
  | .logs batches => batches.length

end ExportRequest

/-- The counts of two requests add up. -/
theorem ExportRequest.Joins.counts_eq_add {first second whole : ExportRequest}
    (joins : Joins first second whole) : whole.counts = first.counts + second.counts := by
  -- Each count is a sum over the batches, also where it wraps around.
  cases joins <;>
    simp only [counts, ResourceBatch.resourceCount_append, ResourceBatch.itemCount_append,
      UInt64.ofNat_add] <;> rfl

namespace RequestConversion

open ExportRequest (Joins)

variable (conversion : RequestConversion) {first second whole : ExportRequest}
  (joins : Joins first second whole)

include joins

/-- After a failure on the first request the batches of the second one are left alone. -/
theorem convert_of_joins_of_failure {cause : ConversionError}
    (failed : (conversion.convert first).failure = some cause) :
    Joins (conversion.convert first).value second (conversion.convert whole).value ∧
      (conversion.convert whole).records = (conversion.convert first).records ∧
      (conversion.convert whole).failure = some cause := by
  -- Only the changes matter here, and the counts are left out of them.
  simp only [convert_eq_applyTo] at failed ⊢
  cases joins with
  -- The same holds for each signal, with batches of its own.
  | traces first second =>
    simp only [applyTo, conversion.applyToBatches_append_of_failure failed second]
    exact ⟨.traces _ _, rfl, failed⟩
  | metrics first second =>
    simp only [applyTo, conversion.applyToBatches_append_of_failure failed second]
    exact ⟨.metrics _ _, rfl, failed⟩
  | logs first second =>
    simp only [applyTo, conversion.applyToBatches_append_of_failure failed second]
    exact ⟨.logs _ _, rfl, failed⟩

/-- After a success on the first request the second one is converted as on its own, further down. -/
theorem convert_of_joins_of_success (passed : (conversion.convert first).failure = none) :
    Joins (conversion.convert first).value (conversion.convert second).value
        (conversion.convert whole).value ∧
      (conversion.convert whole).records = (conversion.convert first).records ++
        (conversion.convert second).records.map (.shift first.batchCount) ∧
      (conversion.convert whole).failure = (conversion.convert second).failure := by
  -- The places in the records of the items are local, whatever the signal.
  simp only [convert_eq_applyTo] at passed ⊢
  cases joins with
  -- The same holds for each signal, with the schema on items of its own.
  | traces first second =>
    simp only [applyTo, conversion.applyToBatches_append_of_success
      (fun _ spans => (conversion.schema.reverts_convertSpans _ spans).isLocal) passed second]
    exact ⟨.traces _ _, rfl, rfl⟩
  | metrics first second =>
    simp only [applyTo, conversion.applyToBatches_append_of_success
      (fun _ metrics => (conversion.schema.reverts_convertMetrics _ metrics).isLocal) passed second]
    exact ⟨.metrics _ _, rfl, rfl⟩
  | logs first second =>
    simp only [applyTo, conversion.applyToBatches_append_of_success
      (fun _ records => (conversion.schema.reverts_convertLogs _ records).isLocal) passed second]
    exact ⟨.logs _ _, rfl, rfl⟩

/-- A request put together from two is converted like the two one after the other. If the first one
succeeds on its own, both parts come out as on their own, the places recorded for the second part
are further down by the batches of the first one, and the second part decides what the caller is
told: its failure, or the counts of both. If the first one fails on its own, the whole fails for the
same cause with the same records, and the second part stays as it was. -/
theorem convert_of_joins :
    (∀ stats, conversion.result first = .ok stats →
      Joins (conversion.convert first).value (conversion.convert second).value
          (conversion.convert whole).value ∧
        (conversion.convert whole).records = (conversion.convert first).records ++
          (conversion.convert second).records.map (.shift first.batchCount) ∧
        conversion.result whole = (conversion.result second).map (stats + ·)) ∧
    (∀ cause, conversion.result first = .error cause →
      Joins (conversion.convert first).value second (conversion.convert whole).value ∧
        (conversion.convert whole).records = (conversion.convert first).records ∧
        conversion.result whole = .error cause) := by
  -- The caller is told of a failure, or else of the counts.
  cases begun : (conversion.convert first).failure with
  | none =>
    -- The first request succeeds, and its counts are known.
    obtain ⟨parts, records, rest⟩ := conversion.convert_of_joins_of_success joins begun
    simp only [result_eq_outcome, Attempt.outcome, begun, rest, joins.counts_eq_add]
    refine ⟨?_, by simp⟩
    rintro stats ⟨⟩
    refine ⟨parts, records, ?_⟩
    -- The second part decides.
    cases (conversion.convert second).failure <;> rfl
  | some failure =>
    -- The first request fails, and no count is told.
    obtain ⟨parts, records, rest⟩ := conversion.convert_of_joins_of_failure joins begun
    simp only [result_eq_outcome, Attempt.outcome, begun, rest]
    refine ⟨by simp, ?_⟩
    rintro cause ⟨⟩
    exact ⟨parts, records, rfl⟩

omit joins

/-- A conversion by URL with a schema whose only step renames an attribute of resources and one of
log records. -/
def toHostMessages : RequestConversion :=
  byUrl
    { versions := [{ VersionStep.empty ⟨[1, 1, 0], "1.1.0"⟩ with
        resource := [.ofList [("h", "host")]], logs := [.ofList [("m", "message")]] }]
      schemaUrl := some "https://opentelemetry.io/schemas/1.1.0"
      ascending := List.pairwise_singleton _ _ } .zero true

/-- A request with one batch for each of some lists of keys: a resource and one log record, whose
attributes have these keys. -/
def hostMessages (keys : List (List String)) : ExportRequest :=
  .logs (keys.map fun keys => ⟨some ⟨[⟨"h", .string "a"⟩], 0⟩, "https://example.com/1.0.0",
    [⟨none, "", [⟨0, 0, "", .absent, keys.map fun key => ⟨key, .string key⟩, ""⟩]⟩]⟩)

/-- Of two batches joined to another one the second cannot be converted: the whole then fails in its
third batch, and the changes to the other two are all made and recorded where they are. -/
theorem convert_of_joins_lateConflict :
    Joins (hostMessages [["m"]]) (hostMessages [["m"], ["m", "message"]])
        (hostMessages [["m"], ["m"], ["m", "message"]]) ∧
      toHostMessages.result (hostMessages [["m"]]) = .ok ⟨1, 0, 0, 1⟩ ∧
      Joins (toHostMessages.convert (hostMessages [["m"]])).value
        (toHostMessages.convert (hostMessages [["m"], ["m", "message"]])).value
        (toHostMessages.convert (hostMessages [["m"], ["m"], ["m", "message"]])).value ∧
      (toHostMessages.convert (hostMessages [["m"], ["m"], ["m", "message"]])).records =
        (toHostMessages.convert (hostMessages [["m"]])).records ++
          (toHostMessages.convert (hostMessages [["m"], ["m", "message"]])).records.map
            (.shift 1) ∧
      toHostMessages.result (hostMessages [["m"], ["m"], ["m", "message"]]) =
        .error (.conflict "message") := by
  have joins : Joins (hostMessages [["m"]]) (hostMessages [["m"], ["m", "message"]])
      (hostMessages [["m"], ["m"], ["m", "message"]]) := .logs [_] [_, _]
  -- The first batch is converted, and one of the other two has the key twice.
  have passes : toHostMessages.result (hostMessages [["m"]]) = .ok ⟨1, 0, 0, 1⟩ := by
    decide +kernel
  have clashes : toHostMessages.result (hostMessages [["m"], ["m", "message"]]) =
      .error (.conflict "message") := by decide +kernel
  obtain ⟨parts, records, told⟩ := (convert_of_joins toHostMessages joins).1 _ passes
  rw [clashes] at told
  exact ⟨joins, passes, parts, records, told⟩

end RequestConversion

end SchemaUplift
