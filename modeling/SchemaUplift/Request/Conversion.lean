import SchemaUplift.Journal.Rollback
import SchemaUplift.Request.Stats
import SchemaUplift.Schema.Basic

/-! Conversion of whole requests: each batch is converted from the version that its schema URL
names, and its URL is then pointed at the latest version. -/

namespace SchemaUplift

/-- How requests are converted. -/
structure RequestConversion where
  /-- The schema to convert to. -/
  schema : Schema
  /-- The version of data that does not tell its own. -/
  fallback : Version
  /-- Whether the schema URLs of a request tell its versions. -/
  readsUrls : Bool
  /-- The URL that converted data gets, if it gets one. -/
  target : Option String

namespace RequestConversion

/-- The conversion that reads schema URLs, and redirects them to the schema's own if asked to. -/
def byUrl (schema : Schema) (fallback : Version) (redirects : Bool) : RequestConversion :=
  ⟨schema, fallback, true, if redirects then schema.schemaUrl else none⟩

/-- The conversion that takes all data to be at the first version and leaves schema URLs alone. -/
def fromZero (schema : Schema) : RequestConversion := ⟨schema, .zero, false, none⟩

/-- The version of data with a schema URL: the one that the URL spells, else the inherited one. -/
def versionOf (conversion : RequestConversion) (url : String) (inherited : Version) : Version :=
  if conversion.readsUrls && !url.isEmpty then (Version.ofSchemaUrl? url).getD inherited
  else inherited

/-- Points the schema URL of data that was converted at the target. An empty URL stays empty, and
data that was already at the latest version keeps its own. -/
def redirect (conversion : RequestConversion) (origin : Origin) (start : Version) (url : String) :
    Conversion String :=
  match conversion.target with
  | none => .unchanged url
  | some target =>
    if url.isEmpty || url == target || conversion.schema.isLatest start then .unchanged url
    else .changed target (.schemaUrl ⟨origin, .schemaUrl⟩ url)

/-- Converts the resource of a batch, if it has one, and counts it. -/
def convertResource (conversion : RequestConversion) (index : Nat) (start : Version)
    (stats : Stats) (resource : Option Resource) : Conversion (Stats × Option Resource) :=
  match resource with
  | none => .unchanged (stats, none)
  | some resource =>
    let stats := stats.countResource
    ((conversion.schema.convertResource start resource).mapRecords (.within (.resource index))).map
      fun resource => (stats, some resource)

section Batches

variable {α : Type}

/-- Counts the items of a scope batch, converts them from the version that the batch tells or
inherits, and then redirects its URL. -/
def convertScope (conversion : RequestConversion)
    (convert : Version → List α → Conversion (List α)) (count : Stats → List α → Stats)
    (inherited : Version) (origin : Origin) (stats : Stats) (scope : ScopeBatch α) :
    Conversion (Stats × ScopeBatch α) :=
  let start := conversion.versionOf scope.schemaUrl inherited
  let stats := count stats scope.items
  Attempt.inSequence
    [fun (stats, scope) => ((convert start scope.items).mapRecords (.within origin)).map
        fun items => (stats, { scope with items }),
      fun (stats, scope) => (conversion.redirect origin start scope.schemaUrl).map
        fun schemaUrl => (stats, { scope with schemaUrl })] (stats, scope)

/-- Converts a resource batch: its resource, then its scope batches, and last its URL. -/
def convertBatch (conversion : RequestConversion)
    (convert : Version → List α → Conversion (List α)) (count : Stats → List α → Stats)
    (index : Nat) (stats : Stats) (batch : ResourceBatch α) :
    Conversion (Stats × ResourceBatch α) :=
  let start := conversion.versionOf batch.schemaUrl conversion.fallback
  Attempt.inSequence
    [fun (stats, batch) => (conversion.convertResource index start stats batch.resource).map
        fun (stats, resource) => (stats, { batch with resource }),
      fun (stats, batch) => (Attempt.forEachWith
        (fun scope => conversion.convertScope convert count start (.scope index scope))
        stats batch.scopes).map fun (stats, scopes) => (stats, { batch with scopes }),
      fun (stats, batch) => (conversion.redirect (.resource index) start batch.schemaUrl).map
        fun schemaUrl => (stats, { batch with schemaUrl })] (stats, batch)

/-- Converts the batches of a request in order, until one fails, and counts what is in them. -/
def convertBatches (conversion : RequestConversion)
    (convert : Version → List α → Conversion (List α)) (count : Stats → List α → Stats) :
    List (ResourceBatch α) → Conversion (Stats × List (ResourceBatch α)) :=
  Attempt.forEachWith (conversion.convertBatch convert count) .zero

end Batches

/-- Converts a request, and counts its resources and its spans, metrics or log records on the
way. -/
def run (conversion : RequestConversion) : ExportRequest → Conversion (Stats × ExportRequest)
  | .traces batches =>
    (conversion.convertBatches conversion.schema.convertSpans Stats.countSpans batches).map
      fun (stats, batches) => (stats, .traces batches)
  | .metrics batches =>
    (conversion.convertBatches conversion.schema.convertMetrics Stats.countMetrics batches).map
      fun (stats, batches) => (stats, .metrics batches)
  | .logs batches =>
    (conversion.convertBatches conversion.schema.convertLogs Stats.countLogRecords batches).map
      fun (stats, batches) => (stats, .logs batches)

/-- Converts a request. -/
def convert (conversion : RequestConversion) (request : ExportRequest) : Conversion ExportRequest :=
  (conversion.run request).map (·.2)

/-- What a caller is told: the counts, or the failure. -/
def result (conversion : RequestConversion) (request : ExportRequest) :
    Except ConversionError Stats :=
  let attempt := conversion.run request
  attempt.outcome attempt.value.1

end RequestConversion

/-- A request under conversion, with the journal of all changes made to it. -/
structure Session where
  /-- The request as it stands. -/
  request : ExportRequest
  /-- The changes made, oldest first. -/
  journal : Journal

namespace Session

/-- The session that starts with a request. -/
def start (request : ExportRequest) : Session := ⟨request, ∅⟩

/-- Converts the request as it stands; the journal gains what was changed, also by a conversion
that failed. -/
def convert (session : Session) (conversion : RequestConversion) : Session :=
  let attempt := conversion.convert session.request
  ⟨attempt.value, session.journal.merge ⟨attempt.records⟩⟩

/-- Undoes all changes in the journal, and counts those whose place was found. -/
def rollback (session : Session) : Session × Nat :=
  let (request, restored) := session.journal.rollback session.request
  (⟨request, ∅⟩, restored)

end Session

end SchemaUplift
