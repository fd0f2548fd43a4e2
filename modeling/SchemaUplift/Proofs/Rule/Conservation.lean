import Mathlib.Data.List.Perm.Lattice
import Mathlib.Data.Multiset.MapFold
import SchemaUplift.Proofs.Rule.Merging
import SchemaUplift.Proofs.Rule.Splitting
import SchemaUplift.Proofs.Rule.Sweep
import SchemaUplift.Rule.MetricPlan

/-! No rule for metrics loses or doubles a data point, also where it fails: splits and merges move
the points of a list about, and other rules leave them in their places. -/

namespace SchemaUplift

/-! ### What points tell -/

/-- What stays of a data point even if its metric is turned into a delta sum. -/
structure PointMark where
  /-- The kind of data to which the point belongs. -/
  kind : DataKind
  /-- Time of the reading. -/
  time : UInt64
  /-- Flag bits. -/
  flags : UInt32
  /-- The count of observations, for the point of a distribution. -/
  count : Option UInt64

/-- What a data point tells, its attributes aside. -/
structure PointRecord extends PointMark where
  /-- Start of the interval. -/
  start : UInt64
  /-- The number that was read, for the point of a gauge or a sum that has one. -/
  value : Option Number

/-- What a point of a gauge or a sum tells. -/
def NumberPoint.record (kind : DataKind) (point : NumberPoint) : PointRecord :=
  ⟨⟨kind, point.time, point.flags, none⟩, point.start, point.reading⟩

/-- What a point of a histogram or a summary tells. -/
def DistributionPoint.record (kind : DataKind) (point : DistributionPoint) : PointRecord :=
  ⟨⟨kind, point.time, point.flags, some point.reading⟩, point.start, none⟩

/-- What the points tell, in order. -/
def MetricData.pointRecords (data : MetricData) : List PointRecord :=
  match data with
  | .numbers _ points => points.map (NumberPoint.record data.kind)
  | .distributions _ points => points.map (DistributionPoint.record data.kind)

namespace Metric

/-- What the points of a metric tell, in order. -/
def pointRecords (metric : Metric) : List PointRecord :=
  metric.data.elim [] MetricData.pointRecords

/-- What the points of a list of metrics tell, in whatever order and in whatever metrics. -/
def points (metrics : List Metric) : Multiset PointRecord :=
  ↑(metrics.flatMap pointRecords)

end Metric

/-- What a point of some kind tells. -/
def DataPoint.record (kind : DataKind) (point : DataPoint) : PointRecord :=
  match point.reading with
  | .number value => ⟨⟨kind, point.time, point.flags, none⟩, point.start, value⟩
  | .observations count => ⟨⟨kind, point.time, point.flags, some count⟩, point.start, none⟩

/-- What the data tells is what its points tell. -/
theorem MetricData.pointRecords_eq (data : MetricData) :
    data.pointRecords = data.dataPoints.map (DataPoint.record data.kind) := by
  -- Both forms of data have the fields of their points in the same places.
  cases data <;> simp [pointRecords, dataPoints, NumberPoint.record, DistributionPoint.record,
    DataPoint.record, Point.mapReading]

/-- What a metric tells is what its points tell. -/
theorem Metric.pointRecords_eq (metric : Metric) :
    metric.pointRecords = metric.dataPoints.map (DataPoint.record metric.kind) := by
  -- A metric without data tells nothing, and otherwise its data tells it.
  obtain ⟨name, description, unit, metadata, data⟩ := metric
  cases data with
  | none => rfl
  | some data => exact data.pointRecords_eq

/-! ### Rules for single metrics -/

/-- Steps on the attributes of points leave alone what a point tells apart from them. -/
theorem Point.map_value_forEach {ρ ε α β : Type} {f : Point α → β}
    (blind : ∀ point attributes, f { point with attributes } = f point)
    (step : Nat → Attributes → Attempt ρ ε Attributes) (points : List (Point α)) :
    (Point.forEach step points).value.map f = points.map f :=
  Attempt.map_value_forEach (fun _ point => blind point _) points

/-- Steps on the attributes of all points leave alone what the points tell. -/
theorem Metric.pointRecords_forEachPoint {ρ ε : Type}
    (step : Nat → Attributes → Attempt ρ ε Attributes) (metric : Metric) :
    (metric.forEachPoint step).value.pointRecords = metric.pointRecords := by
  obtain ⟨name, description, unit, metadata, data⟩ := metric
  cases data with
  | none => rfl
  | some data =>
    -- Points of both kinds are changed in their attributes alone.
    cases data with
    | numbers kind points =>
      show (Point.forEach step points).value.map
          (NumberPoint.record (MetricData.numbers kind (Point.forEach step points).value).kind) =
        points.map (NumberPoint.record (MetricData.numbers kind points).kind)
      -- The kind is that of the data before, so each point tells the same.
      rw [MetricData.kind_numbers kind _ points]
      exact Point.map_value_forEach (f := NumberPoint.record _) (fun _ _ => rfl) step points
    | distributions kind points =>
      show (Point.forEach step points).value.map (DistributionPoint.record
          (MetricData.distributions kind (Point.forEach step points).value).kind) =
        points.map (DistributionPoint.record (MetricData.distributions kind points).kind)
      rw [MetricData.kind_distributions kind _ points]
      exact Point.map_value_forEach (f := DistributionPoint.record _) (fun _ _ => rfl) step points

/-- A metric that is turned into a delta sum keeps the marks of its points. -/
theorem Metric.marks_toDelta (index : Nat) (metric : Metric) :
    (metric.toDelta index).value.pointRecords.map (·.toPointMark) =
      metric.pointRecords.map (·.toPointMark) := by
  -- Delta sums are sums, so no point changes its kind.
  have kind : (metric.toDelta index).value.kind = metric.kind := by
    -- A cumulative sum is turned into a delta sum, and everything else is left as it is.
    rcases metric.toDelta_cases index with ⟨monotonic, points, sum⟩ | ⟨-, idle⟩
    · rw [toDelta_of_sum sum, Metric.kind, Metric.kind, sum]
      rfl
    · rw [idle]
      rfl
  -- Points keep their marks one by one, and are marked with one kind.
  rw [pointRecords_eq, pointRecords_eq, kind, List.map_map, List.map_map]
  exact map_dataPoints_toDelta (fun _ _ _ => rfl) index metric

namespace MetricRule

/-- Whether the rule turns metrics into delta sums. -/
def isToDelta : MetricRule → Bool
  | .toDelta _ => true
  | _ => false

/-- The rule leaves alone what points tell, as far as `view` shows it. -/
def Conserves {β : Type} (view : PointRecord → β) (rule : MetricRule) : Prop :=
  ∀ index metric,
    (rule.convert index metric).value.pointRecords.map view = metric.pointRecords.map view

/-- A rule that makes no delta sums leaves alone all that points tell. -/
theorem conserves_of_not_isToDelta {rule : MetricRule} (other : rule.isToDelta = false) :
    rule.Conserves id := by
  intro index metric
  -- The rule is applied, or it passes over the metric.
  rw [MetricRule.convert.eq_def]
  split
  · -- Renames touch names and attributes alone, and the remaining kind of rule is excluded.
    cases rule with
    | rename names => rfl
    | renameAttributes names table =>
      exact congrArg (List.map _) (metric.pointRecords_forEachPoint _)
    | toDelta names => simp [isToDelta] at other
  · rfl

/-- Every rule leaves the marks of points alone. -/
theorem conserves_marks (rule : MetricRule) : rule.Conserves (·.toPointMark) := by
  intro index metric
  -- The rule is applied, or it passes over the metric.
  rw [MetricRule.convert.eq_def]
  split
  · -- Delta sums are the one case in which a point changes, and it keeps its mark there.
    cases rule with
    | rename names => rfl
    | renameAttributes names table =>
      exact congrArg (List.map _) (metric.pointRecords_forEachPoint _)
    | toDelta names => exact metric.marks_toDelta index
  · rfl

end MetricRule

/-- A pass leaves alone what its rules do, in every metric. -/
theorem MetricPass.points_convert {β : Type} {view : PointRecord → β} {pass : MetricPass}
    (each : ∀ rule ∈ pass.rules, rule.Conserves view) (metrics : List Metric) :
    (Metric.points (pass.convert metrics).value).map view = (Metric.points metrics).map view := by
  -- A pass changes metrics in place, so the points are compared metric by metric.
  have inPlace : (pass.convert metrics).value.map (fun metric => metric.pointRecords.map view) =
      metrics.map fun metric => metric.pointRecords.map view := by
    rw [pass.convert_eq]
    -- Each metric takes the rules in sequence, and each of them keeps what the view shows.
    refine Attempt.map_value_forEach ?_ metrics
    intro index metric
    refine Attempt.keeps_value_inSequence
      (f := fun metric => metric.pointRecords.map view) ?_ metric
    simp only [List.forall_mem_map]
    intro rule member metric
    exact each rule member index metric
  -- The points of the list are those of its metrics, in order.
  simp only [Metric.points, Multiset.map_coe, List.map_flatMap]
  rw [List.flatMap_def, List.flatMap_def, inPlace]

/-! ### Splits -/

namespace Point

variable {ρ : Type}

/-- A point goes to one of the groups or is kept, so that none is lost or doubled. -/
theorem sentTo_append_keptFrom {β : Type} {f : Point ρ → β}
    (blind : ∀ point attributes, f { point with attributes } = f point) (select : Selector)
    (groups : Nat) (points : List (Point ρ)) :
    (((List.range groups).flatMap fun group => (sentTo select group points).map f) ++
      (keptFrom select groups points).map f).Perm (points.map f) := by
  -- A point that moves changes its attributes alone, which the function does not see.
  have selected (points : List (Point ρ)) :
      (points.map (selected select)).map f = points.map f := by
    rw [List.map_map]
    exact List.map_congr_left fun point _ => blind point _
  simp only [keptFrom, sentTo, selected]
  -- The induction takes one group after the other out of the points kept.
  induction groups with
  | zero => simp
  | succ groups ih =>
    let goes (point : Point ρ) : Bool := (select point.attributes).2 == some groups
    let kept (groups : Nat) (point : Point ρ) : Bool :=
      !(select point.attributes).2.any (· < groups)
    -- What goes to the last group is among what the groups before it leave.
    have last : (points.filter (kept groups)).filter goes = points.filter goes := by
      rw [List.filter_filter]
      refine List.filter_congr fun point _ => ?_
      cases chosen : goes point with
      | false => simp
      | true =>
        have group : (select point.attributes).2 = some groups := by simpa [goes] using chosen
        simp [kept, group]
    -- What is left after the last group is what one group more leaves.
    have rest : (points.filter (kept groups)).filter (!goes ·) =
        points.filter (kept (groups + 1)) := by
      rw [List.filter_filter]
      refine List.filter_congr fun point _ => ?_
      cases group : (select point.attributes).2 with
      | none => simp [goes, kept, group]
      | some number =>
        rw [Bool.eq_iff_iff]
        simp only [goes, kept, group, Option.some_beq_some, Option.any_some, Bool.and_eq_true,
          Bool.not_eq_true', beq_eq_false_iff_ne, decide_eq_false_iff_not]
        omega
    -- The points that the groups before leave go to the last group or stay.
    have parted := List.filter_append_perm goes (points.filter (kept groups))
    rw [last, rest] at parted
    rw [List.range_succ, List.flatMap_append, List.flatMap_singleton, List.append_assoc,
      ← List.map_append]
    exact ((parted.map f).append_left _).trans ih

end Point

/-- Data taken apart into groups, and what is left of it, still has its points. -/
theorem MetricData.pointRecords_partition (groups : Nat) (select : Selector) (data : MetricData) :
    ((data.partition groups select).2.flatMap pointRecords ++
      (data.partition groups select).1.pointRecords).Perm data.pointRecords := by
  -- What is left is of the kind of the whole, as is each part.
  have left : (data.partition groups select).1.kind = data.kind := by
    rw [← kind_emptied, emptied_partition_fst, kind_emptied]
  have blind (point : DataPoint) (attributes : Attributes) :
      DataPoint.record data.kind { point with attributes } = DataPoint.record data.kind point := rfl
  -- The groups and what is left share out the points of the whole.
  simp only [partition_snd, pointRecords_eq, List.flatMap_map, dataPoints_sentTo, kind_sentTo,
    dataPoints_partition_fst, left]
  exact Point.sentTo_append_keptFrom blind select groups data.dataPoints

/-- A metric without points tells nothing. -/
theorem Metric.pointRecords_of_pointCount {metric : Metric} (void : ¬ 0 < metric.pointCount) :
    metric.pointRecords = [] := by
  -- No points are counted exactly if there are none.
  rw [pointCount_eq, List.length_pos_iff, not_not] at void
  rw [pointRecords_eq, void, List.map_nil]

/-- Leaving out metrics without points leaves the points as they are. -/
theorem Metric.flatMap_pointRecords_filter (metrics : List Metric) :
    (metrics.filter fun metric => 0 < metric.pointCount).flatMap pointRecords =
      metrics.flatMap pointRecords := by
  -- Each metric that is left out brings nothing to the points.
  induction metrics with
  | nil => rfl
  | cons metric rest ih =>
    by_cases some : 0 < metric.pointCount
    · rw [List.filter_cons_of_pos (by simpa using some), List.flatMap_cons, List.flatMap_cons, ih]
    · rw [List.filter_cons_of_neg (by simpa using some), List.flatMap_cons, ih,
        pointRecords_of_pointCount some, List.nil_append]

namespace SplitRule

/-- The metrics that come from one metric have its points. -/
theorem pointRecords_splitMetric (rule : SplitRule) (metric : Metric) :
    ((rule.splitMetric metric).flatMap Metric.pointRecords).Perm metric.pointRecords := by
  -- The metric is passed on whole, or parted by the selector of the rule.
  rcases rule.splitMetric_cases metric with ⟨-, alone⟩ | ⟨data, -, held, parted⟩
  · rw [alone, List.flatMap_singleton]
  · -- There is one group for each new metric.
    have moved : (rule.targets.zipIdx.map (rule.part metric data)).flatMap Metric.pointRecords =
        (data.partition rule.targets.length rule.select).2.flatMap MetricData.pointRecords := by
      rw [MetricData.partition_snd, List.range_eq_range', ← List.zipIdx_map_snd, List.map_map,
        List.flatMap_map, List.flatMap_map]
      rfl
    -- The metric tells what its data tells.
    have whole : metric.pointRecords = data.pointRecords := by
      rw [Metric.pointRecords, held]
      rfl
    rw [parted, Metric.flatMap_pointRecords_filter, List.flatMap_cons, moved, whole]
    exact List.perm_append_comm.trans (data.pointRecords_partition _ _)

/-- A split leaves alone what points tell. -/
theorem points_convert (rule : SplitRule) (metrics : List Metric) :
    Metric.points (rule.convert metrics).value = Metric.points metrics := by
  -- A split that moves nothing leaves the list alone, and otherwise each metric is split.
  rw [convert]
  split
  · refine Multiset.coe_eq_coe.2 ?_
    show ((metrics.flatMap rule.splitMetric).flatMap Metric.pointRecords).Perm _
    rw [List.flatMap_assoc]
    exact List.Perm.flatMap_left _ fun metric _ => rule.pointRecords_splitMetric metric
  · rfl

end SplitRule

/-! ### Merges -/

namespace MergeRule

/-- A source that is marked keeps its points, their attributes aside. -/
theorem pointRecords_tag (rule : MergeRule) (metric : Metric) :
    (rule.tag metric).pointRecords = metric.pointRecords := by
  -- A metric that is no source is not marked at all.
  cases listed : rule.sources.get? metric.name with
  | none => simp only [tag, listed]
  | some value =>
    -- Marking changes attributes, and the record of a point has none.
    rw [Metric.pointRecords_eq, dataPoints_tag listed, kind_tag, List.map_map,
      Metric.pointRecords_eq]
    rfl

/-- A merge leaves alone what points tell, also where it refuses its sources. -/
theorem points_convert (rule : MergeRule) (metrics : List Metric) :
    Metric.points (rule.convert metrics).value = Metric.points metrics := by
  -- Without a source the merge does nothing.
  by_cases found : ∃ metric ∈ metrics, rule.isSource metric
  · obtain ⟨before, first, after, starts⟩ := exists_startsAt found
    -- With one, it refuses or merges its sources.
    rcases starts.convert_cases with
      ⟨failure, -, converted⟩ | ⟨fits, merged, emptied, points, converted⟩
    · rw [converted]
      rfl
    · -- All sources are of the kind of the first one, so that none of them is left out.
      have kind : merged.kind = first.kind := Metric.kind_eq_of_emptied emptied
      have records : merged.pointRecords =
          (first :: after.filter rule.isSource).flatMap Metric.pointRecords := by
        rw [Metric.pointRecords_eq, points, List.map_flatMap, kind, ← starts.sources]
        refine List.flatMap_congr fun source member => ?_
        rw [← rule.pointRecords_tag source, Metric.pointRecords_eq, kind_tag,
          kind_of_not_refusal? (fits source member)]
      -- The metrics after the first source are sources or stay.
      have parted := (List.filter_append_perm rule.isSource after).flatMap_right
        Metric.pointRecords
      rw [converted]
      refine Multiset.coe_eq_coe.2 ?_
      simp only [Attempt.changed]
      -- The points before, of the first source and of the others are compared in turn.
      rw [starts.whole, List.flatMap_append, List.flatMap_append, List.flatMap_cons,
        List.flatMap_cons, records, List.flatMap_cons, List.append_assoc, ← List.flatMap_append]
      exact (parted.append_left _).append_left _
  · have absent : ∀ metric ∈ metrics, rule.isSource metric = false := by simpa using found
    rw [convert_of_no_source absent]
    rfl

end MergeRule

end SchemaUplift
