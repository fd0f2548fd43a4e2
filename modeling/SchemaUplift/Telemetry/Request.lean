import SchemaUplift.Telemetry.Metric

/-! Resources, spans and log records, and the export requests that carry them in batches.

A record has the fields that a conversion, a rollback or an outline reads or writes, and those that
tell the record from others of its kind. The rest travels with its record untouched and is left out:
the identifiers, the flags and the status of a span, the identifiers and the trace state of a link,
the numbers of attributes left out by the sender but for those of a resource, the time at which a
log record was observed, its identifiers and its flags. -/

namespace SchemaUplift

/-- What telemetry is about: a process, a host, a cluster. -/
structure Resource where
  /-- The attributes that identify it. -/
  attributes : Attributes
  /-- The number of attributes left out by the sender. -/
  dropped : UInt32

/-- Something that happened during a span, without the number of attributes left out. -/
structure SpanEvent where
  /-- The name by which rules find the event. -/
  name : String
  /-- When it happened, in nanoseconds. -/
  time : UInt64
  /-- What is known about it. -/
  attributes : Attributes

/-- A reference from one span to another, without the identifiers of the other span. Conversions
rename the keys of its attributes and read nothing else of it. -/
structure SpanLink where
  /-- What is known about the reference. -/
  attributes : Attributes

/-- One operation within a trace, without its identifiers, its flags and its status. -/
structure Span where
  /-- The name by which rules find the span. -/
  name : String
  /-- The role of the span in a call. -/
  kind : Int32
  /-- State that tracing systems pass along. -/
  traceState : String
  /-- When the operation started, in nanoseconds. -/
  startTime : UInt64
  /-- When the operation ended, in nanoseconds. -/
  endTime : UInt64
  /-- What is known about the operation. -/
  attributes : Attributes
  /-- What happened during it. -/
  events : List SpanEvent
  /-- The spans that it refers to. -/
  links : List SpanLink

/-- One log entry, without its identifiers, its flags and the time at which it was observed. -/
structure LogRecord where
  /-- When it was written, in nanoseconds. -/
  time : UInt64
  /-- The severity as a number. -/
  severity : Int32
  /-- The severity as its source names it. -/
  severityText : String
  /-- What was logged. -/
  body : Value
  /-- What is known about the entry. -/
  attributes : Attributes
  /-- The kind of event that the entry reports. -/
  eventName : String

/-- The library that produced telemetry. -/
structure InstrumentationScope where
  /-- The name of the library. -/
  name : String
  /-- The version of the library. -/
  version : String
  /-- What is known about the library. -/
  attributes : Attributes

/-- Telemetry of type `α` from one library. -/
structure ScopeBatch (α : Type) where
  /-- The library. -/
  scope : Option InstrumentationScope
  /-- The URL of the schema that the telemetry follows; empty if it names none. -/
  schemaUrl : String
  /-- The spans, metrics or log records. -/
  items : List α

/-- Telemetry of type `α` about one resource. -/
structure ResourceBatch (α : Type) where
  /-- The resource. -/
  resource : Option Resource
  /-- The URL of the schema for the resource and for scopes that name none. -/
  schemaUrl : String
  /-- The telemetry, by library. -/
  scopes : List (ScopeBatch α)

/-- An export request of one of the three signals. -/
inductive ExportRequest where
  /-- A request that carries spans. -/
  | traces (batches : List (ResourceBatch Span))
  /-- A request that carries metrics. -/
  | metrics (batches : List (ResourceBatch Metric))
  /-- A request that carries log records. -/
  | logs (batches : List (ResourceBatch LogRecord))

/-- The name of a request's signal. -/
def ExportRequest.signal : ExportRequest → String
  | .traces _ => "traces"
  | .metrics _ => "metrics"
  | .logs _ => "logs"

end SchemaUplift
