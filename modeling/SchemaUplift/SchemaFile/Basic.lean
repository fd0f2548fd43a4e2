import SchemaUplift.Rename

/-! Schemas as they are declared: a list of versions, each with the changes that lead to it, by
kind of telemetry. -/

namespace SchemaUplift

/-- A declared rename of span attributes. -/
structure SpanAttributeRename where
  /-- The new attribute keys. -/
  attributeMap : RenameTable
  /-- The names of the spans concerned; empty for all spans. -/
  applyToSpans : List String

/-- A declared rename of span event attributes. -/
structure EventAttributeRename where
  /-- The names of the spans concerned; empty for all spans. -/
  applyToSpans : List String
  /-- The names of the events concerned; empty for all events. -/
  applyToEvents : List String
  /-- The new attribute keys. -/
  attributeMap : RenameTable

/-- One declared change to span events; events get their new names before their attributes do. -/
structure EventChange where
  /-- The new event names. -/
  renameEvents : Option RenameTable
  /-- The new attribute keys. -/
  renameAttributes : Option EventAttributeRename

/-- A declared rename of data point attributes. -/
structure MetricAttributeRename where
  /-- The names of the metrics concerned; empty for all metrics. -/
  applyToMetrics : List String
  /-- The new attribute keys. -/
  attributeMap : RenameTable

/-- A declared split of a metric. -/
structure SplitDeclaration where
  /-- The metric to split. -/
  applyToMetric : String
  /-- The attribute whose value decides. -/
  byAttribute : String
  /-- The new metrics, each with the value that it takes. -/
  metricsFromAttributes : Table String

/-- A declared merge of metrics. -/
structure MergeDeclaration where
  /-- The merged metric. -/
  createMetric : String
  /-- The attribute that tells the source of a point. -/
  byAttribute : String
  /-- The sources, each with the value that its points receive. -/
  attributesForMetrics : Table String

/-- One declared change to metrics; its parts take effect in the order of the fields. -/
structure MetricChange where
  /-- The new metric names. -/
  renameMetrics : RenameTable
  /-- The new attribute keys. -/
  renameAttributes : Option MetricAttributeRename
  /-- A metric to split. -/
  split : Option SplitDeclaration
  /-- Metrics to merge. -/
  merge : Option MergeDeclaration
  /-- Cumulative sums to turn into delta sums. -/
  toDelta : List String

/-- The changes that lead to a version, by section. A change to attributes alone is its table, or
nothing where the change declares none. -/
structure VersionDefinition where
  /-- Changes to the attributes of all telemetry. -/
  all : List (Option RenameTable)
  /-- Changes to the attributes of resources. -/
  resources : List (Option RenameTable)
  /-- Changes to the attributes of spans. -/
  spans : List (Option SpanAttributeRename)
  /-- Changes to the events of spans. -/
  spanEvents : List EventChange
  /-- Changes to metrics. -/
  metrics : List MetricChange
  /-- Changes to the attributes of log records. -/
  logs : List (Option RenameTable)

/-- The definition without changes. -/
def VersionDefinition.empty : VersionDefinition := ⟨[], [], [], [], [], []⟩

/-- A declared schema. -/
structure SchemaFile where
  /-- The version of the format of the file. -/
  fileFormat : String
  /-- The URL of the latest version. -/
  schemaUrl : String
  /-- The versions as spelled, in the order of their declaration. -/
  versions : List (String × VersionDefinition)

namespace SchemaFile

/-- The schema without versions. -/
def empty : SchemaFile := ⟨"", "", []⟩

/-- The position of the first version with exactly the given spelling. -/
def find? (file : SchemaFile) (name : String) : Option Nat :=
  file.versions.findIdx? (·.1 == name)

/-- The definition of the first version with exactly the given spelling. -/
def definition? (file : SchemaFile) (name : String) : Option VersionDefinition :=
  file.versions.lookup name

end SchemaFile

end SchemaUplift
