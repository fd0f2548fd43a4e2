import SchemaUplift.Rule.Delta
import SchemaUplift.Rule.Routing

/-! What a version changes on single metrics, and passes of such changes. -/

namespace SchemaUplift

/-- A change to a single metric. -/
inductive MetricRule where
  /-- Gives metrics new names. -/
  | rename (names : RenameTable)
  /-- Renames attributes of the data points of the metrics in scope; the empty scope holds all. -/
  | renameAttributes (metrics : NameSet) (table : RenameTable)
  /-- Turns the named cumulative sums into delta sums. -/
  | toDelta (metrics : NameSet)

/-- Renames the attributes of every data point of the metric at `index`. -/
def Metric.renameAttributes (table : RenameTable) (index : Nat) (metric : Metric) :
    Conversion Metric :=
  metric.forEachPoint fun point attributes =>
    table.convert (.here (.dataPoint index point)) attributes

namespace MetricRule

/-- Whether the rule concerns a metric of the given name. -/
def appliesTo : MetricRule → String → Bool
  | .rename names, name => names.contains name
  | .renameAttributes metrics _, name => metrics.covers name
  | .toDelta metrics, name => metrics.contains name

/-- The metric names that the rule mentions as those of metrics it concerns. -/
def mentioned : MetricRule → List String
  | .rename names => names.keys
  | .renameAttributes metrics _ => metrics.keys
  | .toDelta metrics => metrics.keys

/-- Whether the rule concerns metrics of every name. -/
def isUnscoped : MetricRule → Bool
  | .renameAttributes metrics _ => metrics.isEmpty
  | _ => false

/-- The name of a metric after the rule, given its name before. -/
def nameAfter : MetricRule → String → String
  | .rename names, name => names.effective name
  | _, name => name

/-- Changes the metric at `index` if the rule concerns it. -/
def convert (rule : MetricRule) (index : Nat) (metric : Metric) : Conversion Metric :=
  if rule.appliesTo metric.name then
    match rule with
    | .rename names =>
      .changed { metric with name := names.effective metric.name }
        (.renamedName (.here (.metric index)) metric.name)
    | .renameAttributes _ table => metric.renameAttributes table index
    | .toDelta _ => metric.toDelta index
  else .unchanged metric

end MetricRule

/-- Changes to single metrics, in order. -/
structure MetricPass where
  /-- The changes. -/
  rules : List MetricRule

namespace MetricPass

/-- The positions, from `index` on, of the rules that a metric meets as it goes through a pass
under the names that the pass gives it. -/
def route (index : Nat) (name : String) : List MetricRule → List Nat
  | [] => []
  | rule :: rest =>
    if rule.appliesTo name then index :: route (index + 1) (rule.nameAfter name) rest
    else route (index + 1) name rest

/-- The rules by metric name: each mentioned name gets the rules that a metric of that name
meets, and other names get the unscoped ones. -/
def routing (pass : MetricPass) : Routing where
  byName := .ofList <| (pass.rules.flatMap MetricRule.mentioned).map fun name =>
    (name, route 0 name pass.rules)
  fallback := positionsWhere MetricRule.isUnscoped pass.rules

/-- Converts each metric in turn, by the rules for the name with which it comes. -/
def convert (pass : MetricPass) (metrics : List Metric) : Conversion (List Metric) :=
  let routing := pass.routing
  Attempt.forEach (fun index metric =>
    Attempt.inSequence ((routing.select pass.rules metric.name).map (·.convert index)) metric)
    metrics

end MetricPass

end SchemaUplift
