import SchemaUplift.Attempt
import SchemaUplift.Telemetry.Value

/-! Metrics and their data points. A metric holds points of one kind: numbers for gauges and sums,
distributions for histograms and summaries.

Points have the fields that rules read or write. Exemplars, buckets with their bounds, the sum and
the extremes of a distribution and its quantiles travel with their point untouched and are left
out. -/

namespace SchemaUplift

/-- A measured number. -/
inductive Number where
  /-- A 64-bit integer. -/
  | int (value : Int64)
  /-- A floating-point number. -/
  | double (value : Float)

/-- A data point with a reading of type `ρ`, without its exemplars. -/
structure Point (ρ : Type) where
  /-- What the point is about. -/
  attributes : Attributes
  /-- Start of the interval, in nanoseconds. -/
  start : UInt64
  /-- Time of the reading, in nanoseconds. -/
  time : UInt64
  /-- Flag bits. -/
  flags : UInt32
  /-- What was read. -/
  reading : ρ

/-- A point of a gauge or a sum, which may lack its number. -/
abbrev NumberPoint := Point (Option Number)

/-- A point of a histogram or a summary, with the count of its observations. The buckets and the
quantiles are left out: no rule reads them, and delta rules pass over distributions. -/
abbrev DistributionPoint := Point UInt64

/-- How the points of a metric relate to earlier ones: `1` is delta, `2` is cumulative, and other
numbers are passed on. -/
abbrev Temporality := Int32

/-- Each point tells the change since the one before. -/
def Temporality.delta : Temporality := 1

/-- Each point tells the total since the start. -/
def Temporality.cumulative : Temporality := 2

/-- The kinds of metric whose points are numbers. -/
inductive NumberKind where
  /-- The current value of something. -/
  | gauge
  /-- A sum over time. -/
  | sum (temporality : Temporality) (monotonic : Bool)
deriving DecidableEq

/-- The kinds of metric whose points are distributions. -/
inductive DistributionKind where
  /-- Counts by explicit buckets. -/
  | histogram (temporality : Temporality)
  /-- Counts by exponential buckets. -/
  | exponentialHistogram (temporality : Temporality)
  /-- Quantiles. -/
  | summary
deriving DecidableEq

/-- The kind of a metric's data, as messages name it. -/
inductive DataKind where
  /-- Data of a gauge. -/
  | gauge
  /-- Data of a sum. -/
  | sum
  /-- Data of a histogram. -/
  | histogram
  /-- Data of an exponential histogram. -/
  | exponentialHistogram
  /-- Data of a summary. -/
  | summary
  /-- No data at all. -/
  | empty
deriving DecidableEq, Repr

/-- The name of a kind of data. -/
def DataKind.name : DataKind → String
  | .gauge => "gauge"
  | .sum => "sum"
  | .histogram => "histogram"
  | .exponentialHistogram => "exponential histogram"
  | .summary => "summary"
  | .empty => "empty"

/-- The data points of a metric. -/
inductive MetricData where
  /-- Points of a gauge or a sum. -/
  | numbers (kind : NumberKind) (points : List NumberPoint)
  /-- Points of a histogram or a summary. -/
  | distributions (kind : DistributionKind) (points : List DistributionPoint)

/-- A metric with its data, if it has any. -/
structure Metric where
  /-- The name by which rules find the metric. -/
  name : String
  /-- What the metric measures. -/
  description : String
  /-- The unit of its readings. -/
  unit : String
  /-- Attributes of the metric as a whole. -/
  metadata : Attributes
  /-- The data points. -/
  data : Option MetricData

/-- Takes a step on the attributes of each of some points, given its index, until one fails. -/
def Point.forEach {ρ ε α : Type} (step : Nat → Attributes → Attempt ρ ε Attributes) :
    List (Point α) → Attempt ρ ε (List (Point α)) :=
  Attempt.forEach fun index point =>
    (step index point.attributes).map fun attributes => { point with attributes }

namespace MetricData

/-- The kind of the data. -/
def kind : MetricData → DataKind
  | .numbers .gauge _ => .gauge
  | .numbers (.sum ..) _ => .sum
  | .distributions (.histogram _) _ => .histogram
  | .distributions (.exponentialHistogram _) _ => .exponentialHistogram
  | .distributions .summary _ => .summary

/-- The number of points. -/
def pointCount : MetricData → Nat
  | .numbers _ points => points.length
  | .distributions _ points => points.length

/-- The attributes of every point, in order. -/
def attributeLists : MetricData → List Attributes
  | .numbers _ points => points.map (·.attributes)
  | .distributions _ points => points.map (·.attributes)

/-- The data with the attributes of every point mapped, given the index of the point. -/
def mapAttributes (f : Nat → Attributes → Attributes) : MetricData → MetricData
  | .numbers kind points =>
    .numbers kind (points.mapIdx fun i p => { p with attributes := f i p.attributes })
  | .distributions kind points =>
    .distributions kind (points.mapIdx fun i p => { p with attributes := f i p.attributes })

/-- Takes a step on the attributes of every point, given the index of the point, until one fails. -/
def forEachPoint {ρ ε : Type} (step : Nat → Attributes → Attempt ρ ε Attributes) :
    MetricData → Attempt ρ ε MetricData
  | .numbers kind points => (Point.forEach step points).map (.numbers kind)
  | .distributions kind points => (Point.forEach step points).map (.distributions kind)

/-- The points of `more` after those of `data`, or nothing if the two are of different kinds.
Temporality and monotonicity stay those of `data`. -/
def append? (data more : MetricData) : Option MetricData :=
  if data.kind = more.kind then
    match data, more with
    | .numbers kind points, .numbers _ added => some (.numbers kind (points ++ added))
    | .distributions kind points, .distributions _ added =>
      some (.distributions kind (points ++ added))
    | _, _ => none
  else none

end MetricData

/-- Where a point goes: the group that takes it, if one does, and its attributes there. -/
abbrev Selector := Attributes → Attributes × Option Nat

namespace Point

variable {ρ : Type}

/-- The point with the attributes that the selector leaves it. -/
def selected (select : Selector) (point : Point ρ) : Point ρ :=
  { point with attributes := (select point.attributes).1 }

/-- The points that the selector sends to the group with the given number. -/
def sentTo (select : Selector) (group : Nat) (points : List (Point ρ)) : List (Point ρ) :=
  (points.filter fun p => (select p.attributes).2 == some group).map (selected select)

/-- The points that the selector sends to none of the first `groups` groups. -/
def keptFrom (select : Selector) (groups : Nat) (points : List (Point ρ)) : List (Point ρ) :=
  (points.filter fun p => !(select p.attributes).2.any (· < groups)).map (selected select)

end Point

namespace MetricData

/-- The data without the points that move, and the moved points as data of the same kind, one for
each of the given number of groups. A group number out of range moves nothing. -/
def partition (groups : Nat) (select : Selector) : MetricData → MetricData × List MetricData
  | .numbers kind points =>
    (.numbers kind (Point.keptFrom select groups points),
      (List.range groups).map fun group => .numbers kind (Point.sentTo select group points))
  | .distributions kind points =>
    (.distributions kind (Point.keptFrom select groups points),
      (List.range groups).map fun group => .distributions kind (Point.sentTo select group points))

end MetricData

namespace Metric

/-- The kind of a metric's data. -/
def kind (metric : Metric) : DataKind := metric.data.elim .empty MetricData.kind

/-- The number of data points. -/
def pointCount (metric : Metric) : Nat := metric.data.elim 0 MetricData.pointCount

/-- The attributes of every data point, in order. -/
def attributeLists (metric : Metric) : List Attributes :=
  metric.data.elim [] MetricData.attributeLists

/-- Whether the attributes of some data point pass the test. -/
def anyPoint (test : Attributes → Bool) (metric : Metric) : Bool := metric.attributeLists.any test

/-- The metric with the attributes of every point mapped, given the index of the point. -/
def mapAttributes (f : Nat → Attributes → Attributes) (metric : Metric) : Metric :=
  { metric with data := metric.data.map (MetricData.mapAttributes f) }

/-- Takes a step on the attributes of every point, given the index of the point, until one fails. -/
def forEachPoint {ρ ε : Type} (step : Nat → Attributes → Attempt ρ ε Attributes)
    (metric : Metric) : Attempt ρ ε Metric :=
  match metric.data with
  | some data => (data.forEachPoint step).map fun data => { metric with data := some data }
  | none => .unchanged metric

end Metric

end SchemaUplift
