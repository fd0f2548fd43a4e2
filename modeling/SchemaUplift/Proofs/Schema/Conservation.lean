import SchemaUplift.Proofs.Rule.Conservation
import SchemaUplift.Proofs.Schema.Path

/-! Converting metrics from version to version neither loses nor doubles a data point, whether it
succeeds or stops half-way. -/

namespace SchemaUplift

/-- Whether some rule of the stage turns metrics into delta sums. -/
def MetricStage.makesDeltas : MetricStage → Bool
  | .pass steps => steps.rules.any MetricRule.isToDelta
  | .split _ => false
  | .merge _ => false

/-- Whether the step turns metrics into delta sums. -/
def VersionStep.makesDeltas (step : VersionStep) : Bool :=
  step.metrics.stages.any MetricStage.makesDeltas

section Views

variable {β : Type} {view : PointRecord → β}

/-- A stage leaves alone what points tell, as far as a view shows it, if the rules of its pass
do. -/
theorem MetricStage.points_convert {stage : MetricStage}
    (each : ∀ pass, stage = .pass pass → ∀ rule ∈ pass.rules, rule.Conserves view)
    (metrics : List Metric) :
    (Metric.points (stage.convert metrics).value).map view = (Metric.points metrics).map view := by
  -- The stage is a pass, a split or a merge, and each is known to keep the points.
  cases stage with
  | pass steps => exact steps.points_convert (each steps rfl) metrics
  | split rule => exact congrArg _ (rule.points_convert metrics)
  | merge rule => exact congrArg _ (rule.points_convert metrics)

/-- The plan of a step leaves alone what points tell, as far as a view shows it, if all its rules
for single metrics do. -/
theorem MetricPlan.points_convert {plan : MetricPlan}
    (each : ∀ pass, .pass pass ∈ plan.stages → ∀ rule ∈ pass.rules, rule.Conserves view)
    (metrics : List Metric) :
    (Metric.points (plan.convert metrics).value).map view = (Metric.points metrics).map view := by
  -- The stages follow each other until one fails, and each of them keeps the points.
  refine Attempt.keeps_value_inSequence
    (f := fun metrics => (Metric.points metrics).map view) ?_ metrics
  -- A stage keeps the points if the rules of its pass do.
  simp only [List.forall_mem_map]
  intro stage member metrics
  refine MetricStage.points_convert ?_ metrics
  rintro pass rfl
  exact each pass member

/-- A conversion leaves alone what points tell, as far as a view shows it, if all rules for single
metrics in the steps that it takes do. -/
theorem Schema.points_convertMetrics {schema : Schema} {start : Version}
    (each : ∀ step ∈ schema.pending start, ∀ pass, .pass pass ∈ step.metrics.stages →
      ∀ rule ∈ pass.rules, rule.Conserves view) (metrics : List Metric) :
    (Metric.points (schema.convertMetrics start metrics).value).map view =
      (Metric.points metrics).map view := by
  -- The steps follow each other until one fails, and each of them keeps the points.
  rw [schema.convertMetrics_eq]
  refine Attempt.keeps_value_inSequence
    (f := fun metrics => (Metric.points metrics).map view) ?_ metrics
  simp only [List.forall_mem_map]
  intro step member metrics
  exact MetricPlan.points_convert (each step member) metrics

end Views

namespace Schema

/-- No data point is lost or doubled by a conversion, also by one that fails: the multiset of marks
of all points (kind, time, flags and count of observations) stays the same; and if no step that is
taken makes delta sums, so does the multiset of all that points tell (their start and value too). -/
theorem map_mark_points_convertMetrics (schema : Schema) (start : Version)
    (metrics : List Metric) :
    (Metric.points (schema.convertMetrics start metrics).value).map (·.toPointMark) =
        (Metric.points metrics).map (·.toPointMark) ∧
      ((∀ step ∈ schema.pending start, step.makesDeltas = false) →
        Metric.points (schema.convertMetrics start metrics).value = Metric.points metrics) := by
  constructor
  · -- Every rule keeps the marks, whatever it does to the rest.
    exact points_convertMetrics (fun _ _ _ _ rule _ => rule.conserves_marks) metrics
  · -- The view that shows everything is kept by rules that make no delta sums.
    intro noDeltas
    have kept : (Metric.points (schema.convertMetrics start metrics).value).map id =
        (Metric.points metrics).map id := by
      refine points_convertMetrics ?_ metrics
      intro step member pass stage rule within
      -- A rule that made delta sums would show in its step.
      have others := noDeltas step member
      simp only [VersionStep.makesDeltas, List.any_eq_false] at others
      have otherRules := others _ stage
      simp only [MetricStage.makesDeltas, List.any_eq_true, not_exists, not_and] at otherRules
      exact MetricRule.conserves_of_not_isToDelta (by simpa using otherRules rule within)
    simpa using kept

/-- A schema whose only step splits a metric by direction and merges one of the parts with another
metric. -/
def regrouped : Schema where
  versions := [{ VersionStep.empty ⟨[1, 1, 0], "1.1.0"⟩ with
    metrics := ⟨[.split ⟨"io", "direction", [("io.in", "in"), ("io.out", "out")]⟩,
      .merge ⟨"disk", "source", .ofList [("io.in", "io"), ("reads", "reads")]⟩]⟩ }]
  schemaUrl := none
  ascending := List.pairwise_singleton _ _

/-- A metric of three directions, and one that is merged with the first of them. -/
def directions : List Metric :=
  let point (direction : String) (value : Int64) : NumberPoint :=
    ⟨[⟨"direction", .string direction⟩], 0, 1, 0, some (.int value)⟩
  [⟨"io", "", "By", [], some (.numbers .gauge [point "in" 5, point "out" 7, point "up" 9])⟩,
    ⟨"reads", "", "By", [], some (.numbers .gauge [point "in" 2])⟩]

/-- The four points are in three metrics then, and tell what they told before. -/
theorem map_mark_points_convertMetrics_directions :
    (∀ step ∈ regrouped.pending .zero, step.makesDeltas = false) ∧
      (regrouped.convertMetrics .zero directions).value.map (·.pointCount) = [1, 2, 1] ∧
      Metric.points (regrouped.convertMetrics .zero directions).value =
        Metric.points directions := by
  -- No stage of the step is a pass, so that none makes delta sums.
  have noDeltas : ∀ step ∈ regrouped.pending .zero, step.makesDeltas = false := by decide +kernel
  exact ⟨noDeltas, by decide +kernel,
    (map_mark_points_convertMetrics regrouped .zero directions).2 noDeltas⟩

end Schema

end SchemaUplift
