import SchemaUplift.Rename

/-! Merging several metrics into one whose points tell by an attribute where they come from. -/

namespace SchemaUplift

/-- Puts the points of several metrics together under a new name. -/
structure MergeRule where
  /-- The name of the merged metric. -/
  metric : String
  /-- The attribute that tells the source of a point. -/
  byAttribute : String
  /-- The names of the sources, with the attribute value that the points of each receive. -/
  sources : Table String

namespace MergeRule

/-- Whether a metric is one of the sources. -/
def isSource (rule : MergeRule) (metric : Metric) : Bool := rule.sources.contains metric.name

/-- Why a source cannot be merged with the first one: it holds data of another kind, or a point of
it already has the attribute that is to tell its source. -/
def refusal? (rule : MergeRule) (first source : Metric) : Option ConversionError :=
  if source.kind ≠ first.kind then
    some (.incompatibleMerge rule.metric
      (.kinds first.name first.kind source.name source.kind))
  else if source.anyPoint (·.hasKey rule.byAttribute) then some (.conflict rule.byAttribute)
  else none

/-- The metric with every point marked, at the end of its attributes, by the value for its name. -/
def tag (rule : MergeRule) (metric : Metric) : Metric :=
  match rule.sources.get? metric.name with
  | some value => metric.mapAttributes fun _ attributes =>
      attributes ++ [⟨rule.byAttribute, .string value⟩]
  | none => metric

/-- Adds the points of a further source, unless they are of another kind. -/
def absorb? (merged source : Metric) : Option Metric :=
  match merged.data, source.data with
  | _, none => some merged
  | none, some data => some { merged with data := some data }
  | some data, some more => (data.append? more).map fun data => { merged with data := some data }

/-- Goes through the metrics behind the first source: further sources are marked and absorbed by the
merged metric, and the others are passed on. A source that cannot be absorbed ends this, and then
the metrics from it on are gone. -/
def gather (rule : MergeRule) (merged : Metric) :
    List Metric → Conversion (Metric × List Metric)
  | [] => .unchanged (merged, [])
  | metric :: rest =>
    if rule.isSource metric then
      match absorb? merged (rule.tag metric) with
      | some merged => rule.gather merged rest
      | none => .failed (merged, []) (.incompatibleMerge rule.metric .mixedPoints)
    else (rule.gather merged rest).map fun (merged, others) => (merged, metric :: others)

/-- Merges the sources of a list at the position of the first one. A source that does not fit stops
the merge before it changes anything. -/
def convert (rule : MergeRule) (metrics : List Metric) : Conversion (List Metric) :=
  match metrics.span (!rule.isSource ·) with
  | (_, []) => .unchanged metrics
  | (before, first :: after) =>
    match (first :: after.filter rule.isSource).findSome? (rule.refusal? first) with
    | some failure => .failed metrics failure
    | none =>
      (Attempt.changed metrics (.replacedMetrics (.here .metricList) metrics)).andThen fun _ =>
        (rule.gather { rule.tag first with name := rule.metric } after).map
          fun (merged, others) => before ++ merged :: others

end MergeRule

end SchemaUplift
