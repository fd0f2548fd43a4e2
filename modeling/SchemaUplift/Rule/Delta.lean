import SchemaUplift.Rename

/-! Cumulative sums turned into sums of changes. -/

namespace SchemaUplift

/-- The change from one reading to the next. There is none after a decrease, which tells that the
count was reset, nor between an integer and a floating-point number. -/
def Number.since? : Number → Number → Option Number
  | .int current, .int previous =>
    if previous ≤ current then some (.int (current - previous)) else none
  | .double current, .double previous =>
    if previous ≤ current then some (.double (current - previous)) else none
  | _, _ => none

namespace NumberPoint

/-- The point with the change since its predecessor, which it then starts from; without such a
change the point stays as it is. -/
def since (point predecessor : NumberPoint) : NumberPoint :=
  match point.reading, predecessor.reading with
  | some current, some previous =>
    match current.since? previous with
    | some change => { point with reading := some change, start := predecessor.time }
    | none => point
  | _, _ => point

/-- The attributes of a point in an order that does not depend on theirs, unless keys repeat. -/
def seriesKey (point : NumberPoint) : Attributes :=
  point.attributes.mergeSort fun a b => a.key ≤ b.key

end NumberPoint

/-- A time series: the attributes that its points share, and the positions of the points. -/
structure Series where
  /-- The sorted attributes of its first point. -/
  key : Attributes
  /-- The positions of its points, ascending. -/
  positions : List Nat

namespace Series

/-- Adds a position to the first series with the given key; a new key starts a series. -/
def add (key : Attributes) (position : Nat) : List Series → List Series
  | [] => [⟨key, [position]⟩]
  | first :: rest =>
    if first.key == key then { first with positions := first.positions ++ [position] } :: rest
    else first :: add key position rest

/-- The series of a list of points: the positions grouped by attributes, in whatever order a point
lists them. -/
def ofPoints (points : List NumberPoint) : List Series :=
  points.zipIdx.foldl (fun found entry => add entry.1.seriesKey entry.2 found) []

/-- The positions ordered by the times of their points; equal times stay in list order. -/
def inTimeOrder (points : List NumberPoint) (series : Series) : List Nat :=
  let timeAt (position : Nat) : UInt64 := (points[position]?.map (·.time)).getD 0
  series.positions.mergeSort fun a b => timeAt a ≤ timeAt b

/-- Goes through positions and gives each point the change since the point met before it, which is
remembered as it was before it was changed itself. -/
def sweep (points : List NumberPoint) (previous : Option NumberPoint) :
    List Nat → List NumberPoint
  | [] => points
  | position :: rest =>
    match points[position]? with
    | none => sweep points previous rest
    | some point =>
      sweep (points.set position (previous.elim point point.since)) (some point) rest

end Series

/-- The points with each reading replaced by the change since the reading that came before it in
its series, one series after the other. -/
def deltas (points : List NumberPoint) : List NumberPoint :=
  (Series.ofPoints points).foldl
    (fun points series => Series.sweep points none (series.inTimeOrder points)) points

/-- Turns the metric at `index` into a delta sum if it is a cumulative one. -/
def Metric.toDelta (index : Nat) (metric : Metric) : Conversion Metric :=
  match metric.data with
  | some (.numbers (.sum temporality monotonic) points) =>
    if temporality = .cumulative then
      .changed { metric with data := some (.numbers (.sum .delta monotonic) (deltas points)) }
        (.replacedMetric (.here (.metric index)) metric)
    else .unchanged metric
  | _ => .unchanged metric

end SchemaUplift
