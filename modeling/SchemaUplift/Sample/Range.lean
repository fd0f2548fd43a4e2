import SchemaUplift.Sample.Batch

/-! The ranges that drawn values keep to, and what is left of a sample without them. -/

namespace SchemaUplift.Sample

/-- Whether every status code is one of those that occur. -/
def statusInRange (attributes : Attributes) : Bool :=
  attributes.all fun entry => entry.key != "http.status_code" ||
    statusCodes.any fun code => entry.value == .int code

/-- Whether every named attribute of a resource has one of its variants. -/
def resourceInRange (resource : Resource) : Bool :=
  resource.attributes.all fun entry => !resourceKeys.contains entry.key ||
    (List.range resourceVariants).any fun variant =>
      entry.value == .string (resourceValue entry.key variant)

/-- Whether the status code and the duration of a span are in range. -/
def spanInRange (span : Span) : Bool :=
  let duration := span.endTime.toNat - span.startTime.toNat
  statusInRange span.attributes && shortestSpan ≤ duration && duration < longestSpan

/-- Whether the status code and the reading of a data point are in range. -/
def pointInRange (point : NumberPoint) : Bool :=
  statusInRange point.attributes && match point.reading with
    | some (.int value) => 0 ≤ value.toInt && value.toInt < readingBound
    | _ => false

/-- Whether the points of a metric are in range. -/
def metricInRange (metric : Metric) : Bool :=
  match metric.data with
  | some (.numbers _ points) => points.all pointInRange
  | _ => false

/-- Whether the resources and the items of batches are in range. -/
def batchesInRange {α : Type} (itemInRange : α → Bool) (batches : List (ResourceBatch α)) : Bool :=
  batches.all fun batch =>
    batch.resource.all resourceInRange && batch.scopes.all (·.items.all itemInRange)

/-- Whether every drawn value of a request is in range. -/
def inRange : ExportRequest → Bool
  | .traces batches => batchesInRange spanInRange batches
  | .metrics batches => batchesInRange metricInRange batches
  | .logs batches => batchesInRange (fun record => statusInRange record.attributes) batches

/-! ### Outlines -/

/-- The attributes without the values that are drawn. -/
def attributesOutline (attributes : Attributes) : Attributes :=
  attributes.map fun entry =>
    if ("http.status_code" :: resourceKeys).contains entry.key then { entry with value := .absent }
    else entry

/-- The span without its status code and its end. -/
def spanOutline (span : Span) : Span :=
  { span with attributes := attributesOutline span.attributes, endTime := 0 }

/-- The data point without its status code and its reading. -/
def pointOutline (point : NumberPoint) : NumberPoint :=
  { point with attributes := attributesOutline point.attributes, reading := none }

/-- The metric without the drawn values of its points. -/
def metricOutline (metric : Metric) : Metric :=
  match metric.data with
  | some (.numbers kind points) =>
    { metric with data := some (.numbers kind (points.map pointOutline)) }
  | _ => metric

/-- The log record without its status code. -/
def logRecordOutline (record : LogRecord) : LogRecord :=
  { record with attributes := attributesOutline record.attributes }

/-- The batches without the drawn values of their resources and items. -/
def batchesOutline {α : Type} (itemOutline : α → α) (batches : List (ResourceBatch α)) :
    List (ResourceBatch α) :=
  batches.map fun batch => { batch with
    resource := batch.resource.map fun resource =>
      { resource with attributes := attributesOutline resource.attributes }
    scopes := batch.scopes.map fun scope =>
      { scope with items := scope.items.map itemOutline } }

/-- What all samples of one order have in common: the request without the values drawn for it. -/
def outline : ExportRequest → ExportRequest
  | .traces batches => .traces (batchesOutline spanOutline batches)
  | .metrics batches => .metrics (batchesOutline metricOutline batches)
  | .logs batches => .logs (batchesOutline logRecordOutline batches)

end SchemaUplift.Sample
