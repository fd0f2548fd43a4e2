import SchemaUplift.Telemetry.Request

/-! Counts of the entities that a conversion passes through. -/

namespace SchemaUplift

/-- How many entities of each kind were passed through. -/
structure Stats where
  /-- The number of resources. -/
  resources : UInt64
  /-- The number of spans. -/
  spans : UInt64
  /-- The number of metrics. -/
  metrics : UInt64
  /-- The number of log records. -/
  logRecords : UInt64
deriving DecidableEq

namespace Stats

/-- No entity at all. -/
def zero : Stats := ⟨0, 0, 0, 0⟩

/-- The counts of two conversions together. -/
def add (a b : Stats) : Stats :=
  ⟨a.resources + b.resources, a.spans + b.spans, a.metrics + b.metrics,
    a.logRecords + b.logRecords⟩

instance : Add Stats := ⟨add⟩

/-- The number of entities of all kinds. -/
def total (stats : Stats) : UInt64 :=
  stats.resources + stats.spans + stats.metrics + stats.logRecords

instance : ToString Stats where
  toString stats :=
    s!"resources={stats.resources.toNat}, spans={stats.spans.toNat}, " ++
    s!"metrics={stats.metrics.toNat}, log_records={stats.logRecords.toNat}"

/-! ### Counting -/

/-- The counts after one more resource. -/
def countResource (stats : Stats) : Stats := { stats with resources := stats.resources + 1 }

/-- The counts after some more spans. -/
def countSpans (stats : Stats) (spans : List Span) : Stats :=
  { stats with spans := stats.spans + .ofNat spans.length }

/-- The counts after some more metrics. -/
def countMetrics (stats : Stats) (metrics : List Metric) : Stats :=
  { stats with metrics := stats.metrics + .ofNat metrics.length }

/-- The counts after some more log records. -/
def countLogRecords (stats : Stats) (records : List LogRecord) : Stats :=
  { stats with logRecords := stats.logRecords + .ofNat records.length }

end Stats

end SchemaUplift
