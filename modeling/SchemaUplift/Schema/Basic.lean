import SchemaUplift.Rule.MetricPlan
import SchemaUplift.Rule.Span
import SchemaUplift.Version

/-! Schemas ready for use: for each version what it changes, in ascending order of versions. -/

namespace SchemaUplift

/-- Renames the attributes of a resource. -/
def RenameTable.convertResource (table : RenameTable) (resource : Resource) : Conversion Resource :=
  (table.convert (.here .resource) resource.attributes).map
    fun attributes => { resource with attributes }

/-- Renames the attributes of the log record at `index`. -/
def RenameTable.convertLogRecord (table : RenameTable) (index : Nat) (record : LogRecord) :
    Conversion LogRecord :=
  (table.convert (.here (.logRecord index)) record.attributes).map
    fun attributes => { record with attributes }

/-- What is changed on the way from the version before to this one. -/
structure VersionStep where
  /-- The version that the step leads to. -/
  version : Version
  /-- The tables for resources, in order. -/
  resource : List RenameTable
  /-- The rules for spans. -/
  spans : SpanPass
  /-- The rules for metrics. -/
  metrics : MetricPlan
  /-- The tables for log records, in order. -/
  logs : List RenameTable

namespace VersionStep

/-- The step that changes nothing. -/
def empty (version : Version) : VersionStep := ⟨version, [], ⟨[], []⟩, ⟨[]⟩, []⟩

/-- Whether the step changes nothing. -/
def isEmpty (step : VersionStep) : Bool :=
  step.resource.isEmpty && step.spans.isEmpty && step.metrics.isEmpty && step.logs.isEmpty

/-- Converts a resource to the version of the step. -/
def convertResource (step : VersionStep) : Resource → Conversion Resource :=
  Attempt.inSequence (step.resource.map RenameTable.convertResource)

/-- Converts log records to the version of the step, one record after the other. -/
def convertLogs (step : VersionStep) : List LogRecord → Conversion (List LogRecord) :=
  Attempt.forEach fun index =>
    Attempt.inSequence (step.logs.map fun table => table.convertLogRecord index)

end VersionStep

/-- A schema ready for use. -/
structure Schema where
  /-- The steps from version to version. -/
  versions : List VersionStep
  /-- The URL that names the latest version, if the schema declares one. -/
  schemaUrl : Option String
  /-- No step leads to an older version than the one before it. -/
  ascending : versions.Pairwise fun a b => a.version.atMost b.version = true

namespace Schema

/-- The schema with the given steps, put in order; equal versions keep their order. -/
def ofVersions (versions : List VersionStep) (schemaUrl : Option String) : Schema where
  versions := versions.mergeSort fun a b => a.version.atMost b.version
  schemaUrl
  ascending := List.pairwise_mergeSort
    (fun a b c => Version.atMost_trans a.version b.version c.version)
    (fun a b => Version.atMost_total a.version b.version) versions

/-- The number of versions. -/
def size (schema : Schema) : Nat := schema.versions.length

/-- Whether there is no version. -/
def isEmpty (schema : Schema) : Bool := schema.versions.isEmpty

/-- The latest version. -/
def latest? (schema : Schema) : Option Version := schema.versions.getLast?.map (·.version)

/-- The steps that data at version `start` has yet to take: those to newer versions. -/
def pending (schema : Schema) (start : Version) : List VersionStep :=
  schema.versions.dropWhile fun step => step.version.atMost start

/-- Whether data at version `start` has no step left to take. -/
def isLatest (schema : Schema) (start : Version) : Bool := (schema.pending start).isEmpty

/-! ### Conversion to the latest version -/

/-- Converts a resource from version `start`. -/
def convertResource (schema : Schema) (start : Version) : Resource → Conversion Resource :=
  Attempt.inSequence ((schema.pending start).map VersionStep.convertResource)

/-- Converts the items of a list by one pass for each version; an empty list takes no pass. -/
def convertList {α : Type} (passes : List (List α → Conversion (List α))) (items : List α) :
    Conversion (List α) :=
  if items.isEmpty then .unchanged items else Attempt.inSequence passes items

/-- Converts spans from version `start`. -/
def convertSpans (schema : Schema) (start : Version) : List Span → Conversion (List Span) :=
  convertList ((schema.pending start).map (·.spans.convert))

/-- Converts metrics from version `start`. -/
def convertMetrics (schema : Schema) (start : Version) : List Metric → Conversion (List Metric) :=
  convertList ((schema.pending start).map (·.metrics.convert))

/-- Converts log records from version `start`. -/
def convertLogs (schema : Schema) (start : Version) :
    List LogRecord → Conversion (List LogRecord) :=
  convertList ((schema.pending start).map VersionStep.convertLogs)

end Schema

end SchemaUplift
