import SchemaUplift.Rename
import SchemaUplift.Rule.Routing

/-! Splitting a metric into several by the value of an attribute. -/

namespace SchemaUplift

/-- Moves points of one metric to new metrics, each of which takes the points with one value of an
attribute. -/
structure SplitRule where
  /-- The name of the metric to split. -/
  metric : String
  /-- The attribute whose value decides. -/
  byAttribute : String
  /-- The names of the new metrics, in order, with the text of the value that each takes. -/
  targets : List (String × String)

namespace SplitRule

/-- The position of the new metric that takes a value; of several the last. -/
def targetOf? (rule : SplitRule) (value : String) : Option Nat :=
  (positionsWhere (·.2 == value) rule.targets).getLast?

/-- Whether some attribute of a point has the deciding key and a value that a new metric takes. -/
def selects (rule : SplitRule) (attributes : Attributes) : Bool :=
  attributes.any fun entry =>
    entry.key == rule.byAttribute && (rule.targetOf? entry.value.text).isSome

/-- Decides by the first attribute with the deciding key, which a point that moves leaves behind. -/
def select (rule : SplitRule) : Selector := fun attributes =>
  match attributes.findIdx? (·.key == rule.byAttribute) with
  | none => (attributes, none)
  | some position =>
    match (attributes[position]?).bind fun entry => rule.targetOf? entry.value.text with
    | none => (attributes, none)
    | some group => (attributes.eraseIdx position, some group)

/-- What becomes of a metric: the metric with the points that stay, if any do, and after it the new
metrics that have points. Metrics of other names and metrics without data stay as they are. -/
def splitMetric (rule : SplitRule) (metric : Metric) : List Metric :=
  if metric.name = rule.metric then
    match metric.data with
    | none => [metric]
    | some data =>
      let (rest, groups) := data.partition rule.targets.length rule.select
      let moved := (groups.zip rule.targets).map fun (group, target) =>
        { metric with name := target.1, data := some group }
      ({ metric with data := some rest } :: moved).filter fun m => 0 < m.pointCount
  else [metric]

/-- Splits every metric of the name, if some point of one has an attribute that selects a new
metric; otherwise nothing is touched. -/
def convert (rule : SplitRule) (metrics : List Metric) : Conversion (List Metric) :=
  if metrics.any fun m => m.name == rule.metric && m.anyPoint rule.selects then
    .changed (metrics.flatMap rule.splitMetric) (.replacedMetrics (.here .metricList) metrics)
  else .unchanged metrics

end SplitRule

end SchemaUplift
