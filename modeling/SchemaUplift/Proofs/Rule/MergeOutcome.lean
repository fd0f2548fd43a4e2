import SchemaUplift.Proofs.Rule.MergeSplit

/-! What a merge does in every case. It is refused for the first source that does not fit and then
changes nothing, or it puts the points of all sources together and nothing else. -/

namespace SchemaUplift

/-- Whether a metric has a point with an attribute of some key. -/
theorem Metric.anyPoint_hasKey_iff {metric : Metric} {key : String} :
    metric.anyPoint (·.hasKey key) = true ↔
      ∃ point ∈ metric.dataPoints, ∃ entry ∈ point.attributes, entry.key = key := by
  simp [anyPoint_eq_true_iff, Attributes.hasKey]

namespace MergeRule

/-! ### Refused sources -/

/-- Why a source does not fit together with the first one. -/
inductive Misfit (rule : MergeRule) (first source : Metric) : ConversionError → Prop where
  /-- The two hold data of different kinds, or only one of them holds data. -/
  | otherKind (different : source.kind ≠ first.kind) :
    Misfit rule first source (.incompatibleMerge rule.metric
      (.kinds first.name first.kind source.name source.kind))
  /-- The kinds agree, but a point of the source already has the key of the mark. -/
  | keyTaken (same : source.kind = first.kind)
    (taken : ∃ point ∈ source.dataPoints, ∃ entry ∈ point.attributes,
      entry.key = rule.byAttribute) :
    Misfit rule first source (.conflict rule.byAttribute)

variable {rule : MergeRule} {metrics : List Metric}

/-- A source is refused for the reason why it does not fit. -/
theorem refusal?_eq_some_iff {first source : Metric} {failure : ConversionError} :
    rule.refusal? first source = some failure ↔ rule.Misfit first source failure := by
  constructor
  · -- The kinds are compared before the keys are looked at.
    intro refused
    rw [refusal?] at refused
    split at refused
    · -- The kinds differ, whatever the keys are.
      rename_i different
      cases refused
      exact .otherKind different
    · -- The kinds are the same, so that the keys decide.
      rename_i alike
      split at refused
      · rename_i taken
        cases refused
        exact .keyTaken (not_not.1 alike) (Metric.anyPoint_hasKey_iff.1 taken)
      · cases refused
  · -- Both reasons are read off the tests in their order.
    intro misfit
    rw [refusal?]
    cases misfit with
    | otherKind different => rw [if_pos different]
    | keyTaken same taken =>
      rw [if_neg (not_not.2 same), if_pos (Metric.anyPoint_hasKey_iff.2 taken)]

/-- A merge fails with the first refusal among its sources, if there is one. -/
theorem failure_convert (rule : MergeRule) (metrics : List Metric) :
    (rule.convert metrics).failure = (metrics.find? rule.isSource).bind fun first =>
      (metrics.filter rule.isSource).findSome? (rule.refusal? first) := by
  by_cases found : ∃ metric ∈ metrics, rule.isSource metric = true
  · obtain ⟨before, first, after, starts⟩ := exists_startsAt found
    rw [starts.find?, Option.bind_some]
    rcases starts.convert_cases with
      ⟨failure, refused, converted⟩ | ⟨fits, merged, -, -, converted⟩
    · -- The first refusal is the failure.
      rw [refused, converted]
      rfl
    · -- No source is refused, and the merge succeeds.
      rw [List.findSome?_eq_none_iff.2 fits, converted]
      rfl
  · -- Without a source there is nothing to refuse.
    have absent : ∀ metric ∈ metrics, rule.isSource metric = false := by simpa using found
    have none : metrics.find? rule.isSource = none := by simpa using absent
    rw [none, convert_of_no_source absent]
    rfl

/-- A merge that fails changes nothing and leaves no record. -/
theorem convert_of_failure {failure : ConversionError}
    (failed : (rule.convert metrics).failure = some failure) :
    rule.convert metrics = .failed metrics failure := by
  by_cases found : ∃ metric ∈ metrics, rule.isSource metric = true
  · obtain ⟨before, first, after, starts⟩ := exists_startsAt found
    rcases starts.convert_cases with ⟨other, -, converted⟩ | ⟨-, merged, -, -, converted⟩
    · -- The failure is that of the merge, which has the list as it was.
      rw [converted] at failed ⊢
      cases failed
      rfl
    · -- A merge that puts its sources together does not fail.
      rw [converted] at failed
      cases failed
  · -- A merge without sources does not fail.
    have absent : ∀ metric ∈ metrics, rule.isSource metric = false := by simpa using found
    rw [convert_of_no_source absent] at failed
    cases failed

/-- Of the sources of a list, in order, the first one that does not fit does so for the reason
given. -/
def FirstMisfit (rule : MergeRule) (metrics : List Metric) (failure : ConversionError) : Prop :=
  ∃ first passed source rest, metrics.find? rule.isSource = some first ∧
    metrics.filter rule.isSource = passed ++ source :: rest ∧
    (∀ other ∈ passed, ∀ cause, ¬ rule.Misfit first other cause) ∧
    rule.Misfit first source failure

/-- A merge fails exactly if one of its sources does not fit, for the reason of the first such
source, and then the list is as it was and there is no record. It never fails for points of
different kinds that it meets while it puts the sources together. -/
theorem failure_convert_iff_firstMisfit (rule : MergeRule) (metrics : List Metric) :
    (∀ failure, (rule.convert metrics).failure = some failure ↔
      rule.FirstMisfit metrics failure) ∧
    (∀ failure, (rule.convert metrics).failure = some failure ↔
      rule.convert metrics = .failed metrics failure) ∧
    ∀ metric, (rule.convert metrics).failure ≠
      some (.incompatibleMerge metric .mixedPoints) := by
  have firstMisfit (failure : ConversionError) :
      (rule.convert metrics).failure = some failure ↔ rule.FirstMisfit metrics failure := by
    -- A source that is passed is one that is not refused for any reason.
    have fits (first other : Metric) :
        rule.refusal? first other = none ↔ ∀ cause, ¬ rule.Misfit first other cause := by
      simp only [Option.eq_none_iff_forall_ne_some, ne_eq, refusal?_eq_some_iff]
    rw [failure_convert, Option.bind_eq_some_iff, FirstMisfit]
    simp only [List.findSome?_eq_some_iff, refusal?_eq_some_iff, fits]
    constructor
    · -- The four parts of the statement only change places.
      rintro ⟨first, found, passed, source, rest, whole, misfit, earlier⟩
      exact ⟨first, passed, source, rest, found, whole, earlier, misfit⟩
    · rintro ⟨first, passed, source, rest, found, whole, earlier, misfit⟩
      exact ⟨first, found, passed, source, rest, whole, misfit, earlier⟩
  refine ⟨firstMisfit, fun failure => ⟨convert_of_failure, fun failed => ?_⟩, ?_⟩
  · -- A failed attempt has its failure.
    rw [failed]
    rfl
  · -- No source is refused for points that are met later.
    intro metric failed
    obtain ⟨first, passed, source, rest, -, -, -, misfit⟩ := (firstMisfit _).1 failed
    cases misfit

/-! ### Merged sources -/

/-- The sources in a list, in order, each with the value that marks its points. -/
def sourcesIn (rule : MergeRule) (metrics : List Metric) : List (Metric × String) :=
  metrics.filterMap fun metric =>
    (rule.sources.get? metric.name).map fun value => (metric, value)

/-- The points of marked sources are those of the sources, each with the mark of its own. -/
theorem flatMap_tag_filter (rule : MergeRule) (metrics : List Metric) :
    ((metrics.filter rule.isSource).flatMap fun source => (rule.tag source).dataPoints) =
      (rule.sourcesIn metrics).flatMap fun entry => entry.1.dataPoints.map (rule.mark entry.2) := by
  -- A metric is a source exactly if its name is listed, and then the value listed marks its points.
  induction metrics with
  | nil => rfl
  | cons metric rest ih =>
    rw [sourcesIn] at ih ⊢
    cases listed : rule.sources.get? metric.name with
    -- The metric adds no points on either side.
    | none =>
      have other : ¬ rule.isSource metric = true := by simp [isSource, Table.contains, listed]
      rw [List.filter_cons_of_neg other, ih, List.filterMap_cons_none (by rw [listed]; rfl)]
    -- The metric adds its points with its own mark.
    | some value =>
      have source : rule.isSource metric = true := by simp [isSource, Table.contains, listed]
      rw [List.filter_cons_of_pos source, List.flatMap_cons, dataPoints_tag listed, ih,
        List.filterMap_cons_some (by rw [listed]; rfl), List.flatMap_cons]

/-- An item is inserted behind a list in front of another one. -/
theorem insertIdx_length_append {α : Type} (front back : List α) (item : α) :
    (front ++ back).insertIdx front.length item = front ++ item :: back := by
  -- The induction passes the items in front one at a time.
  induction front with
  | nil => rfl
  | cons first rest ih => simpa using ih

/-- A merge that does not fail leaves a list without sources alone. Otherwise it makes a single
record, of the list as it was, and leaves the other metrics with one metric inserted where the first
source stood. In all but its points this metric is the first source under a new name. Its points are
those of all sources in order, each with the mark of its own source. -/
theorem convert_eq_insertIdx (success : (rule.convert metrics).failure = none) :
    match metrics.find? rule.isSource with
    | none => rule.convert metrics = .unchanged metrics
    | some first => ∃! merged : Metric,
      merged.emptied = ({ first with name := rule.metric } : Metric).emptied ∧
      merged.dataPoints = ((rule.sourcesIn metrics).flatMap fun entry =>
        entry.1.dataPoints.map (rule.mark entry.2)) ∧
      rule.convert metrics = .changed
        ((metrics.filter (!rule.isSource ·)).insertIdx (metrics.findIdx rule.isSource) merged)
        (.replacedMetrics (.here .metricList) metrics) := by
  by_cases found : ∃ metric ∈ metrics, rule.isSource metric = true
  · obtain ⟨before, first, after, starts⟩ := exists_startsAt found
    rw [starts.find?]
    rcases starts.convert_cases with
      ⟨failure, -, converted⟩ | ⟨-, merged, emptied, points, converted⟩
    · -- A refusal would be a failure.
      rw [converted] at success
      cases success
    · rw [flatMap_tag_filter] at points
      -- No source stands before the first one, so that its position is the same among the others.
      have place : (metrics.filter (!rule.isSource ·)).insertIdx (metrics.findIdx rule.isSource)
          merged = before ++ merged :: after.filter (!rule.isSource ·) := by
        rw [starts.others, starts.findIdx, insertIdx_length_append]
      refine ⟨merged, ⟨emptied, points, ?_⟩, ?_⟩
      · -- The merge puts the merged metric where its place is.
        rw [converted, place]
      · -- Nothing but its points and the rest of it makes a metric what it is.
        rintro other ⟨otherEmptied, otherPoints, -⟩
        exact Metric.eq_of_emptied (otherEmptied.trans emptied.symm) (otherPoints.trans points.symm)
  · -- Without a source the list is left alone.
    have absent : ∀ metric ∈ metrics, rule.isSource metric = false := by simpa using found
    have none : metrics.find? rule.isSource = none := by simpa using absent
    rw [none]
    exact convert_of_no_source absent

/-- Four sources behind another metric, one of them without points, are put together between metrics
that are left alone. -/
theorem convert_eq_insertIdx_cpuTime :
    (cpuTime.convert (cpuGauge "uptime" [6] :: cpuGauges)).failure = none ∧
    ∃ merged : Metric, (cpuTime.convert (cpuGauge "uptime" [6] :: cpuGauges)).value =
        [cpuGauge "uptime" [6], merged, cpuGauge "load" [3]] ∧
      (merged.name, merged.unit, merged.kind) = ("cpu.time", "s", .gauge) ∧
      merged.dataPoints.map (fun point =>
          (point.time, point.attributes.map fun entry => (entry.key, entry.value.text))) =
        [(1, [("state", "user")]), (2, [("state", "user")]), (4, [("state", "total")]),
          (5, [("state", "user")])] := by
  have success : (cpuTime.convert (cpuGauge "uptime" [6] :: cpuGauges)).failure = none := by
    decide +kernel
  have exact := convert_eq_insertIdx success
  -- Behind the metric in front the first source comes first.
  have found : (cpuGauge "uptime" [6] :: cpuGauges).find? cpuTime.isSource =
      some (cpuGauge "cpu.user" [1, 2]) := rfl
  rw [found] at exact
  obtain ⟨merged, ⟨emptied, points, converted⟩, -⟩ := exact
  refine ⟨success, merged, ?_, ?_, ?_⟩
  · rw [converted]
    rfl
  · -- The merged metric is told by what it has in common with the first source.
    have kind : merged.kind = .gauge := Metric.kind_eq_of_emptied emptied
    have name : merged.name = "cpu.time" := congrArg Metric.name emptied
    have unit : merged.unit = "s" := congrArg Metric.unit emptied
    rw [kind, name, unit]
  · rw [points]
    decide +kernel

end MergeRule

end SchemaUplift
