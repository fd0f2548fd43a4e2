import SchemaUplift.Rule.Merge
import SchemaUplift.Rule.Metric
import SchemaUplift.Rule.Split

/-! What a version changes on a list of metrics, in stages. -/

namespace SchemaUplift

/-- One stage of the conversion of a list of metrics. -/
inductive MetricStage where
  /-- Changes to each metric on its own. -/
  | pass (steps : MetricPass)
  /-- A split. -/
  | split (rule : SplitRule)
  /-- A merge. -/
  | merge (rule : MergeRule)

namespace MetricStage

/-- The number of rules in a stage. -/
def size : MetricStage → Nat
  | .pass steps => steps.rules.length
  | .split _ => 1
  | .merge _ => 1

/-- Converts a list of metrics. -/
def convert : MetricStage → List Metric → Conversion (List Metric)
  | .pass steps => steps.convert
  | .split rule => rule.convert
  | .merge rule => rule.convert

end MetricStage

/-- What one version changes on a list of metrics. -/
structure MetricPlan where
  /-- The stages, in order. -/
  stages : List MetricStage

namespace MetricPlan

/-- The number of rules in all stages. -/
def size (plan : MetricPlan) : Nat := plan.stages.foldr (fun stage rest => stage.size + rest) 0

/-- Whether there is no stage. -/
def isEmpty (plan : MetricPlan) : Bool := plan.stages.isEmpty

/-- Runs the stages over a list of metrics until one fails. -/
def convert (plan : MetricPlan) : List Metric → Conversion (List Metric) :=
  Attempt.inSequence (plan.stages.map MetricStage.convert)

end MetricPlan

end SchemaUplift
