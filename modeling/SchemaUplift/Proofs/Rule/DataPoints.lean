import Mathlib.Data.List.Basic
import SchemaUplift.Telemetry.Metric

/-! Data points of all kinds as one type, and what becomes of them when data is taken apart, put
together or given other attributes. -/

namespace SchemaUplift

/-! ### Points of all kinds -/

/-- What a data point of some kind reads. -/
inductive Reading where
  /-- The number of a gauge or a sum, if there is one. -/
  | number (value : Option Number)
  /-- The count of observations of a distribution. -/
  | observations (count : UInt64)

/-- A data point of some kind. -/
abbrev DataPoint := Point Reading

namespace Point

variable {ρ σ : Type}

/-- The point with its reading turned into another one. -/
def mapReading (f : ρ → σ) (point : Point ρ) : Point σ :=
  ⟨point.attributes, point.start, point.time, point.flags, f point.reading⟩

/-- Which points go to a group does not depend on their readings. -/
theorem sentTo_map_mapReading (f : ρ → σ) (select : Selector) (group : Nat)
    (points : List (Point ρ)) :
    sentTo select group (points.map (mapReading f)) =
      (sentTo select group points).map (mapReading f) := by
  -- The selector sees the attributes alone, which a point keeps with another reading.
  simp only [sentTo, List.filter_map, List.map_map]
  rfl

/-- Points of two lists go to a group in order. -/
theorem sentTo_append (select : Selector) (group : Nat) (points others : List (Point ρ)) :
    sentTo select group (points ++ others) =
      sentTo select group points ++ sentTo select group others := by
  simp [sentTo]

/-- Points of two lists are kept in order. -/
theorem keptFrom_append (select : Selector) (groups : Nat) (points others : List (Point ρ)) :
    keptFrom select groups (points ++ others) =
      keptFrom select groups points ++ keptFrom select groups others := by
  simp [keptFrom]

/-- Which points are kept does not depend on their readings. -/
theorem keptFrom_map_mapReading (f : ρ → σ) (select : Selector) (groups : Nat)
    (points : List (Point ρ)) :
    keptFrom select groups (points.map (mapReading f)) =
      (keptFrom select groups points).map (mapReading f) := by
  -- As for the points that are sent to a group, the selector sees the attributes alone.
  simp only [keptFrom, List.filter_map, List.map_map]
  rfl

end Point

/-! ### Data -/

namespace MetricData

/-- The kind of a gauge or a sum does not depend on its points. -/
theorem kind_numbers (kind : NumberKind) (points others : List NumberPoint) :
    (numbers kind points).kind = (numbers kind others).kind := by
  -- The kind shows in the name and the temporality.
  cases kind <;> rfl

/-- The kind of a histogram or a summary does not depend on its points. -/
theorem kind_distributions (kind : DistributionKind) (points others : List DistributionPoint) :
    (distributions kind points).kind = (distributions kind others).kind := by
  cases kind <;> rfl

/-- The data without its points, which still tells its kind, temporality and monotonicity. -/
def emptied : MetricData → MetricData
  | .numbers kind _ => .numbers kind []
  | .distributions kind _ => .distributions kind []

/-- The kind of data does not depend on its points. -/
theorem kind_emptied (data : MetricData) : data.emptied.kind = data.kind := by
  cases data with
  | numbers kind points => exact kind_numbers kind _ _
  | distributions kind points => exact kind_distributions kind _ _

/-- The data points, in order. -/
def dataPoints : MetricData → List DataPoint
  | .numbers _ points => points.map (Point.mapReading .number)
  | .distributions _ points => points.map (Point.mapReading .observations)

/-- Data is determined by its points and what it tells without them. -/
theorem eq_of_emptied {data other : MetricData} (same : data.emptied = other.emptied)
    (points : data.dataPoints = other.dataPoints) : data = other := by
  -- The points of one kind of data can be told apart by what they read.
  have inject {ρ : Type} {f : ρ → Reading} (inj : Function.Injective f) :
      Function.Injective (Point.mapReading f) := by
    rintro ⟨attributes, start, time, flags, reading⟩ ⟨_, _, _, _, _⟩ equal
    simp only [Point.mapReading, Point.mk.injEq] at equal
    obtain ⟨rfl, rfl, rfl, rfl, read⟩ := equal
    rw [inj read]
  -- Data of different kinds is different without its points, so two of the four cases are left.
  cases data with
  | numbers kind own =>
    cases other with
    | numbers kind' others =>
      simp only [emptied, numbers.injEq, and_true] at same
      have numbers : Function.Injective Reading.number := fun _ _ => Reading.number.inj
      rw [same, List.map_injective_iff.2 (inject numbers) points]
    | distributions kind' others => cases same
  | distributions kind own =>
    cases other with
    | numbers kind' others => cases same
    | distributions kind' others =>
      simp only [emptied, distributions.injEq, and_true] at same
      have counts : Function.Injective Reading.observations := fun _ _ => Reading.observations.inj
      rw [same, List.map_injective_iff.2 (inject counts) points]

/-- The points are counted. -/
theorem pointCount_eq (data : MetricData) : data.pointCount = data.dataPoints.length := by
  -- Points of all kinds are made from the points of one kind, one by one.
  cases data <;> simp [pointCount, dataPoints]

/-- The attributes are those of the points. -/
theorem attributeLists_eq (data : MetricData) :
    data.attributeLists = data.dataPoints.map (·.attributes) := by
  -- The attributes of a point do not depend on its reading.
  cases data <;> simp [attributeLists, dataPoints, Point.mapReading, Function.comp_def]

/-- The data with the points that a selector sends to a group. -/
def sentTo (select : Selector) (group : Nat) : MetricData → MetricData
  | .numbers kind points => .numbers kind (Point.sentTo select group points)
  | .distributions kind points => .distributions kind (Point.sentTo select group points)

/-- Data taken apart makes one part for each group. -/
theorem partition_snd (groups : Nat) (select : Selector) (data : MetricData) :
    (data.partition groups select).2 = (List.range groups).map (data.sentTo select ·) := by
  cases data <;> rfl

/-- Each part has the points that are sent to its group. -/
theorem dataPoints_sentTo (select : Selector) (group : Nat) (data : MetricData) :
    (data.sentTo select group).dataPoints = Point.sentTo select group data.dataPoints := by
  -- The points of a part are sent there whichever type they have.
  cases data <;> exact (Point.sentTo_map_mapReading _ select group _).symm

/-- Each part is like the whole but for its points. -/
theorem emptied_sentTo (select : Selector) (group : Nat) (data : MetricData) :
    (data.sentTo select group).emptied = data.emptied := by
  cases data <;> rfl

/-- Each part is of the kind of the whole. -/
theorem kind_sentTo (select : Selector) (group : Nat) (data : MetricData) :
    (data.sentTo select group).kind = data.kind := by
  -- Both kinds are told without the points.
  rw [← kind_emptied, emptied_sentTo, kind_emptied]

/-- What is left of data taken apart is like the whole but for its points. -/
theorem emptied_partition_fst (groups : Nat) (select : Selector) (data : MetricData) :
    (data.partition groups select).1.emptied = data.emptied := by
  -- Only points are taken away.
  cases data <;> rfl

/-- What is left of data taken apart has the points that no group takes. -/
theorem dataPoints_partition_fst (groups : Nat) (select : Selector) (data : MetricData) :
    (data.partition groups select).1.dataPoints =
      Point.keptFrom select groups data.dataPoints := by
  -- The points that are left are kept whichever type they have.
  cases data <;> exact (Point.keptFrom_map_mapReading _ select groups _).symm

/-- Points keep all but their attributes when these are mapped. -/
theorem dataPoints_mapAttributes (f : Attributes → Attributes) (data : MetricData) :
    (data.mapAttributes fun _ => f).dataPoints =
      data.dataPoints.map fun point => { point with attributes := f point.attributes } := by
  -- Numbers and distributions have their attributes mapped alike.
  cases data with
  | numbers kind points =>
    refine List.ext_getElem (by simp [mapAttributes, dataPoints]) fun position left right => ?_
    simp [mapAttributes, dataPoints, Point.mapReading]
  | distributions kind points =>
    refine List.ext_getElem (by simp [mapAttributes, dataPoints]) fun position left right => ?_
    simp [mapAttributes, dataPoints, Point.mapReading]

/-- Data is as it was, but for its points, when their attributes are mapped. -/
theorem emptied_mapAttributes (f : Nat → Attributes → Attributes) (data : MetricData) :
    (data.mapAttributes f).emptied = data.emptied := by
  cases data <;> rfl

/-- Data of the same kind can be appended, and brings nothing but its points along. -/
theorem exists_append? {data more : MetricData} (same : more.kind = data.kind) :
    ∃ both, data.append? more = some both ∧ both.emptied = data.emptied ∧
      both.dataPoints = data.dataPoints ++ more.dataPoints := by
  -- Points are appended where both are of one type, and the kinds exclude the other cases.
  cases data with
  | numbers kind points =>
    cases more with
    | numbers other added =>
      -- The points of the other data come last.
      refine ⟨.numbers kind (points ++ added), ?_, rfl, List.map_append⟩
      rw [append?, if_pos same.symm]
    | distributions other added => cases kind <;> cases other <;> cases same
  | distributions kind points =>
    cases more with
    | numbers other added => cases kind <;> cases other <;> cases same
    | distributions other added =>
      refine ⟨.distributions kind (points ++ added), ?_, rfl, List.map_append⟩
      rw [append?, if_pos same.symm]

end MetricData

/-! ### Metrics -/

namespace Metric

/-- The data points of a metric, in order. -/
def dataPoints (metric : Metric) : List DataPoint := metric.data.elim [] MetricData.dataPoints

/-- The data points of a metric are those of its data. -/
theorem dataPoints_of_data {metric : Metric} {data : MetricData}
    (held : metric.data = some data) : metric.dataPoints = data.dataPoints := by
  rw [dataPoints, held, Option.elim_some]

/-- The metric without its points: its name, description, unit and metadata, and the kind,
temporality and monotonicity of its data, if it has any. -/
def emptied (metric : Metric) : Metric := { metric with data := metric.data.map MetricData.emptied }

/-- The kind of a metric's data depends neither on its points nor on the name of the metric. -/
theorem kind_eq_of_emptied {metric other : Metric} {name : String}
    (same : metric.emptied = ({ other with name } : Metric).emptied) :
    metric.kind = other.kind := by
  -- The name stands apart from the data, which tells its kind without its points.
  have kind_emptied (metric : Metric) : metric.emptied.kind = metric.kind := by
    obtain ⟨name, description, unit, metadata, data⟩ := metric
    cases data with
    | none => rfl
    | some data => exact data.kind_emptied
  calc
    metric.kind = ({ other with name } : Metric).emptied.kind := by rw [← kind_emptied, same]
    _ = other.kind := kind_emptied _

/-- A metric is determined by its points and what it tells without them. -/
theorem eq_of_emptied {metric other : Metric} (same : metric.emptied = other.emptied)
    (points : metric.dataPoints = other.dataPoints) : metric = other := by
  -- All fields but the data are equal, being part of what a metric tells without its points.
  obtain ⟨name, description, unit, metadata, data⟩ := metric
  obtain ⟨name', description', unit', metadata', data'⟩ := other
  simp only [emptied, Metric.mk.injEq] at same
  obtain ⟨rfl, rfl, rfl, rfl, held⟩ := same
  -- Both metrics hold data or both hold none.
  cases data with
  | none =>
    cases data' with
    | none => rfl
    | some more => cases held
  | some data =>
    cases data' with
    | none => cases held
    | some more => rw [MetricData.eq_of_emptied (Option.some.inj held) points]

/-- The points are counted. -/
theorem pointCount_eq (metric : Metric) : metric.pointCount = metric.dataPoints.length := by
  -- A metric without data has no points, and otherwise they are those of the data.
  obtain ⟨name, description, unit, metadata, data⟩ := metric
  cases data with
  | none => rfl
  -- The data counts its own points.
  | some data => exact data.pointCount_eq

/-- The attributes are those of the points. -/
theorem attributeLists_eq (metric : Metric) :
    metric.attributeLists = metric.dataPoints.map (·.attributes) := by
  -- A metric without data has no points, and otherwise the attributes are those of the data.
  obtain ⟨name, description, unit, metadata, data⟩ := metric
  cases data with
  | none => rfl
  | some data => exact data.attributeLists_eq

/-- A test of attributes that some point passes is passed by a data point. -/
theorem anyPoint_eq_true_iff {metric : Metric} {test : Attributes → Bool} :
    metric.anyPoint test = true ↔ ∃ point ∈ metric.dataPoints, test point.attributes = true := by
  simp [anyPoint, attributeLists_eq]

/-- A test of attributes that no point passes fails for each. -/
theorem anyPoint_eq_false_iff {metric : Metric} {test : Attributes → Bool} :
    metric.anyPoint test = false ↔ ∀ point ∈ metric.dataPoints, test point.attributes = false := by
  simp [anyPoint, attributeLists_eq]

end Metric

end SchemaUplift
