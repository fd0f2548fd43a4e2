import SchemaUplift.Sample.Stream
import SchemaUplift.Telemetry.Request

/-! Made-up requests of any size, for trials of a conversion. One seed gives one request.

A span has no fields for its identifiers, so none are drawn: a sample has its names, times and
attributes, and what `Sample.outline` leaves of it does not depend on the numbers drawn. -/

namespace SchemaUplift.Sample

/-! ### Ingredients -/

/-- The time at which samples start, in nanoseconds: the first of January 2024. -/
def baseTime : Nat := 1704067200000000000

/-- The attributes that every resource has. -/
def resourceKeys : List String :=
  ["service.name", "telemetry.auto.version", "k8s.cluster.name", "host.name"]

/-- The status codes that occur. -/
def statusCodes : List Int64 := [200, 201, 204, 301, 400, 404, 500, 503]

/-- The number of values that occur for each attribute of a resource. -/
def resourceVariants : Nat := 8

/-- The shortest duration of a span, in nanoseconds. -/
def shortestSpan : Nat := 1000

/-- The bound below which durations of spans stay, in nanoseconds. -/
def longestSpan : Nat := 1000000

/-- The bound below which readings stay. -/
def readingBound : Nat := 10000

/-- The attribute with a text as its value. -/
def textAttribute (key content : String) : Attribute := ⟨key, .string content⟩

/-- Draws an attribute that gives a status code. -/
def statusAttribute : StateM Stream Attribute := do
  let position ← Stream.draw statusCodes.length
  return ⟨"http.status_code", .int (statusCodes[position]?.getD 0)⟩

/-- The value of a resource attribute in one of its variants. -/
def resourceValue (key : String) (variant : Nat) : String := s!"{key}-{variant}"

/-- Draws a resource with at least the given number of attributes, fillers included. -/
def resource (attributes : Nat) : StateM Stream Resource := do
  let named ← resourceKeys.mapM fun key => do
    return textAttribute key (resourceValue key (← Stream.draw resourceVariants))
  let fillers := (List.range attributes).drop resourceKeys.length
  return ⟨named ++ fillers.map fun i => textAttribute s!"resource.attr.{i}" s!"value-{i}", 0⟩

/-! ### Items -/

/-- Draws the span with the given index: its status code and its duration. -/
def span (index : Nat) : StateM Stream Span := do
  let start := baseTime + index * 1000
  let duration ← Stream.draw (longestSpan - shortestSpan)
  let route := s!"/api/{index % 10}"
  return {
    name := s!"GET {route}"
    kind := 2
    traceState := ""
    startTime := .ofNat start
    endTime := .ofNat (start + shortestSpan + duration)
    attributes := [← statusAttribute, textAttribute "http.method" "GET",
      textAttribute "http.route" route]
    events := [
      ⟨"exception", .ofNat (start + 10), [textAttribute "exception.type" "IOError"]⟩,
      ⟨"retry", .ofNat (start + 20), []⟩]
    links := [] }

/-- Draws the data point with the given index. -/
def point (index : Nat) : StateM Stream NumberPoint := do
  return {
    attributes := [← statusAttribute]
    start := .ofNat baseTime
    time := .ofNat (baseTime + (index + 1) * 1000000000)
    flags := 0
    reading := some (.int (.ofNat (← Stream.draw readingBound))) }

/-- Draws the metric with the given index, a cumulative sum with the given number of points. -/
def metric (points index : Nat) : StateM Stream Metric := do
  let points ← (List.range points).mapM point
  return ⟨s!"metric{index}", "", "1", [], some (.numbers (.sum .cumulative true) points)⟩

/-- Draws the log record with the given index. -/
def logRecord (index : Nat) : StateM Stream LogRecord := do
  return {
    time := .ofNat (baseTime + index)
    severity := 9
    severityText := "INFO"
    body := .string s!"request {index} handled"
    attributes := [← statusAttribute, textAttribute "http.method" "GET"]
    eventName := "" }

/-! ### Requests -/

/-- Draws a single batch with the given number of items and of resource attributes. -/
def batches {α : Type} (item : Nat → StateM Stream α) (count attributes : Nat) :
    StateM Stream (List (ResourceBatch α)) := do
  let items ← (List.range count).mapM item
  return [⟨some (← resource attributes), "", [⟨none, "", items⟩]⟩]

/-- What a request is to hold. -/
inductive Order where
  /-- Spans. -/
  | spans
  /-- Metrics, each with the given number of points. -/
  | metrics (points : Nat)
  /-- Log records. -/
  | logs

/-- The number of resource attributes where none is asked for. -/
def standardAttributes : Nat := 20

/-- The request for an order that a seed gives, with the given number of items and of resource
attributes. -/
def request (order : Order) (count attributes : Nat) (seed : UInt64) : ExportRequest :=
  let drawn : StateM Stream ExportRequest := match order with
    | .spans => return .traces (← batches span count attributes)
    | .metrics points => return .metrics (← batches (metric points) count attributes)
    | .logs => return .logs (← batches logRecord count attributes)
  (drawn.run ⟨seed⟩).1

end SchemaUplift.Sample
