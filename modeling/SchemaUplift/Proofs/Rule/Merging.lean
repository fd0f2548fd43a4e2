import Mathlib.Data.List.TakeDrop
import Mathlib.Data.List.TakeWhile
import SchemaUplift.Proofs.Interpretation.Success
import SchemaUplift.Proofs.Rule.DataPoints
import SchemaUplift.Rule.Merge

/-! What a merge makes of its sources: one metric with all their points, each marked by the name of
the source that it comes from. -/

namespace SchemaUplift

namespace MergeRule

/-! ### Sources -/

/-- A source that is not refused is of the same kind as the first one. -/
theorem kind_of_not_refusal? {rule : MergeRule} {first source : Metric}
    (fits : rule.refusal? first source = none) : source.kind = first.kind := by
  -- A source of another kind is refused before its keys are looked at.
  by_contra different
  rw [refusal?, if_pos different] at fits
  cases fits

/-- A source that is not refused has no point with the key that is to be added. -/
theorem anyPoint_of_not_refusal? {rule : MergeRule} {first source : Metric}
    (fits : rule.refusal? first source = none) :
    source.anyPoint (·.hasKey rule.byAttribute) = false := by
  -- The kinds are the same, so that the key would be the reason to refuse the source.
  by_contra taken
  rw [refusal?, if_neg (not_not.2 (kind_of_not_refusal? fits)),
    if_pos (by simpa using taken)] at fits
  cases fits

/-- A source that is marked is as it was but for its points. -/
theorem emptied_tag (rule : MergeRule) (metric : Metric) :
    (rule.tag metric).emptied = metric.emptied := by
  -- Only the data is changed, if the metric is a source at all.
  obtain ⟨name, description, unit, metadata, data⟩ := metric
  unfold tag
  split
  · cases data with
    | none => rfl
    | some data => simp [Metric.emptied, Metric.mapAttributes, data.emptied_mapAttributes]
  · rfl

/-- A source that is marked keeps its kind. -/
theorem kind_tag (rule : MergeRule) (metric : Metric) : (rule.tag metric).kind = metric.kind :=
  Metric.kind_eq_of_emptied (rule.emptied_tag metric)

/-- The mark that the points of a source receive at the end of their attributes. -/
def mark (rule : MergeRule) (value : String) (point : DataPoint) : DataPoint :=
  { point with attributes := point.attributes ++ [⟨rule.byAttribute, .string value⟩] }

/-- A source that is marked has its points, each with the mark. -/
theorem dataPoints_tag {rule : MergeRule} {metric : Metric} {value : String}
    (listed : rule.sources.get? metric.name = some value) :
    (rule.tag metric).dataPoints = metric.dataPoints.map (rule.mark value) := by
  -- The value of the table becomes the mark of every point.
  obtain ⟨name, description, unit, metadata, data⟩ := metric
  unfold tag
  rw [listed]
  cases data with
  | none => rfl
  | some data => exact data.dataPoints_mapAttributes _

/-! ### Sources put together -/

/-- A source of the same kind can be absorbed, and brings nothing but its points along. -/
theorem exists_absorb? {merged source : Metric} (same : source.kind = merged.kind) :
    ∃ both, absorb? merged source = some both ∧ both.emptied = merged.emptied ∧
      both.dataPoints = merged.dataPoints ++ source.dataPoints := by
  obtain ⟨name, description, unit, metadata, data⟩ := merged
  obtain ⟨_, _, _, _, more⟩ := source
  -- A source without data changes nothing, and one with data meets data of the same kind.
  cases more with
  | none => exact ⟨_, rfl, rfl, (List.append_nil _).symm⟩
  | some more =>
    cases data with
    | none =>
      -- Data is of some kind, and no data is of none.
      cases more with
      | numbers kind points => cases kind <;> cases same
      | distributions kind points => cases kind <;> cases same
    | some data =>
      obtain ⟨both, appended, emptied, points⟩ := MetricData.exists_append? same
      refine ⟨⟨name, description, unit, metadata, some both⟩, ?_, ?_, points⟩
      · rw [absorb?]
        simp [appended]
      · simp [Metric.emptied, emptied]

/-- Sources of the same kind can all be absorbed, and bring nothing but their points along. -/
theorem exists_foldlM_absorb? {merged : Metric} {sources : List Metric}
    (same : ∀ source ∈ sources, source.kind = merged.kind) :
    ∃ all, sources.foldlM absorb? merged = some all ∧ all.emptied = merged.emptied ∧
      all.dataPoints = merged.dataPoints ++ sources.flatMap Metric.dataPoints := by
  -- The induction absorbs the first source, which leaves all but the points as it is.
  induction sources generalizing merged with
  | nil => exact ⟨merged, rfl, rfl, by simp⟩
  | cons source rest ih =>
    -- The first source is absorbed, and what it leaves is of the kind of the others again.
    obtain ⟨first, others⟩ := List.forall_mem_cons.1 same
    obtain ⟨both, absorbed, emptied, points⟩ := exists_absorb? first
    have kind : both.kind = merged.kind := Metric.kind_eq_of_emptied emptied
    obtain ⟨all, made, allEmptied, allPoints⟩ :=
      ih fun other member => (others other member).trans kind.symm
    refine ⟨all, ?_, allEmptied.trans emptied, ?_⟩
    · simp [absorbed, made]
    · rw [allPoints, points, List.flatMap_cons, List.append_assoc]

/-- Further sources of the kind of the first can all be absorbed. The merged metric has the marked
points of all sources, in order, and is like the first one in all but its points and its name. -/
theorem exists_merged (rule : MergeRule) {first : Metric} {others : List Metric}
    (same : ∀ source ∈ others, source.kind = first.kind) :
    ∃ merged, (others.map rule.tag).foldlM absorb? { rule.tag first with name := rule.metric } =
        some merged ∧ merged.emptied = ({ first with name := rule.metric } : Metric).emptied ∧
      merged.dataPoints = (first :: others).flatMap fun source => (rule.tag source).dataPoints := by
  -- The first source receives the name of the rule before any other one is absorbed.
  let start : Metric := { rule.tag first with name := rule.metric }
  have startEmptied : start.emptied = ({ first with name := rule.metric } : Metric).emptied := by
    -- Without its points, the marked source is the source.
    show ({ (rule.tag first).emptied with name := rule.metric } : Metric) = _
    rw [emptied_tag]
    rfl
  -- Marks do not change a kind, so that all sources can be absorbed.
  have sameKind : ∀ source ∈ others.map rule.tag, source.kind = start.kind := by
    intro source member
    obtain ⟨origin, within, rfl⟩ := List.mem_map.1 member
    have startKind : start.kind = first.kind := rule.kind_tag first
    rw [kind_tag, same origin within, startKind]
  obtain ⟨merged, absorbed, emptied, points⟩ := exists_foldlM_absorb? sameKind
  refine ⟨merged, absorbed, emptied.trans startEmptied, ?_⟩
  rw [points, List.flatMap_map, List.flatMap_cons]
  rfl

/-- Going through the metrics makes no record, wherever it ends. -/
theorem records_gather (rule : MergeRule) (merged : Metric) (metrics : List Metric) :
    (rule.gather merged metrics).records = [] := by
  -- What the merged metric has become by then makes no difference.
  induction metrics generalizing merged with
  | nil => rfl
  | cons metric rest ih =>
    rw [gather]
    split
    · -- A source is absorbed, or ends the walk.
      split
      · exact ih _
      · rfl
    · -- A metric that is no source is passed on.
      exact ih merged

/-- Where the sources among some metrics can all be absorbed, going through the metrics absorbs them
and passes the others on. -/
theorem gather_of_absorbed {rule : MergeRule} {metrics : List Metric} {start merged : Metric}
    (absorbed : ((metrics.filter rule.isSource).map rule.tag).foldlM absorb? start = some merged) :
    rule.gather start metrics = .unchanged (merged, metrics.filter (!rule.isSource ·)) := by
  -- The merged metric changes from source to source, so the induction holds for any of them.
  induction metrics generalizing start with
  -- There is nothing left, and the merged metric is complete.
  | nil =>
    cases absorbed
    rfl
  | cons metric rest ih =>
    rw [gather]
    cases source : rule.isSource metric with
    | true =>
      -- The source in front is the first one to be absorbed.
      rw [List.filter_cons_of_pos source, List.map_cons, List.foldlM_cons] at absorbed
      obtain ⟨both, found, absorbed⟩ := Option.bind_eq_some_iff.1 absorbed
      rw [if_pos rfl, found, List.filter_cons_of_neg (by simp [source])]
      exact ih absorbed
    | false =>
      -- Any other metric is put in front of those that are passed on later.
      rw [List.filter_cons_of_neg (by simp [source])] at absorbed
      rw [if_neg nofun, ih absorbed, List.filter_cons_of_pos (by simp [source])]
      rfl

/-! ### Lists of metrics -/

/-- A merge changes nothing if no metric is one of its sources. -/
theorem convert_of_no_source {rule : MergeRule} {metrics : List Metric}
    (absent : ∀ metric ∈ metrics, rule.isSource metric = false) :
    rule.convert metrics = .unchanged metrics := by
  -- The cut at the first source leaves nothing behind it.
  have rest : metrics.dropWhile (!rule.isSource ·) = [] :=
    List.dropWhile_eq_nil_iff.2 fun metric member => by simp [absent metric member]
  rw [convert, List.span_eq_takeWhile_dropWhile, rest]

/-- A list of metrics is cut at its first source. -/
structure StartsAt (rule : MergeRule) (metrics before : List Metric) (first : Metric)
    (after : List Metric) : Prop where
  /-- The parts make up the list. -/
  whole : metrics = before ++ first :: after
  /-- No source comes before the first one. -/
  early : ∀ metric ∈ before, rule.isSource metric = false
  /-- The first source is one. -/
  source : rule.isSource first = true

/-- A list with a source has a first one. -/
theorem exists_startsAt {rule : MergeRule} {metrics : List Metric}
    (found : ∃ metric ∈ metrics, rule.isSource metric = true) :
    ∃ before first after, rule.StartsAt metrics before first after := by
  -- A search finds the first source, with the metrics before it.
  obtain ⟨first, located⟩ := Option.isSome_iff_exists.1 (List.find?_isSome.2 found)
  obtain ⟨source, before, after, whole, early⟩ := List.find?_eq_some_iff_append.1 located
  exact ⟨before, first, after, whole, by simpa using early, source⟩

namespace StartsAt

variable {rule : MergeRule} {metrics before after : List Metric} {first : Metric}

/-- The first source is the one that a search finds. -/
theorem find? (starts : rule.StartsAt metrics before first after) :
    metrics.find? rule.isSource = some first := by
  refine List.find?_eq_some_iff_append.2 ⟨starts.source, before, after, starts.whole, ?_⟩
  simpa using starts.early

/-- The first source stands after the metrics before it. -/
theorem findIdx (starts : rule.StartsAt metrics before first after) :
    metrics.findIdx rule.isSource = before.length := by
  -- No metric before the first source stops the search.
  have none : before.findIdx rule.isSource = before.length :=
    List.findIdx_eq_length.2 starts.early
  rw [starts.whole, List.findIdx_append, none]
  simp [List.findIdx_cons, starts.source]

/-- The sources are the first one and those after it. -/
theorem sources (starts : rule.StartsAt metrics before first after) :
    metrics.filter rule.isSource = first :: after.filter rule.isSource := by
  -- None of the metrics before the first one is a source.
  have none : before.filter rule.isSource = [] := by simpa using starts.early
  rw [starts.whole, List.filter_append, none, List.filter_cons_of_pos starts.source,
    List.nil_append]

/-- The other metrics are those before the first source, and the others after it. -/
theorem others (starts : rule.StartsAt metrics before first after) :
    metrics.filter (!rule.isSource ·) = before ++ after.filter (!rule.isSource ·) := by
  -- All of the metrics before the first one are others.
  have all : before.filter (!rule.isSource ·) = before := by simpa using starts.early
  rw [starts.whole, List.filter_append, all, List.filter_cons_of_neg (by simp [starts.source])]

/-- A merge that finds a source changes nothing if one of the sources is refused. Otherwise the
first source stays in its place, under its new name and with the marked points of all sources, and
the other ones are left out. -/
theorem convert_cases (starts : rule.StartsAt metrics before first after) :
    (∃ failure, (metrics.filter rule.isSource).findSome? (rule.refusal? first) = some failure ∧
      rule.convert metrics = .failed metrics failure) ∨
    (∀ source ∈ metrics.filter rule.isSource, rule.refusal? first source = none) ∧
      ∃ merged, merged.emptied = ({ first with name := rule.metric } : Metric).emptied ∧
        merged.dataPoints =
          (metrics.filter rule.isSource).flatMap (fun source => (rule.tag source).dataPoints) ∧
        rule.convert metrics = .changed (before ++ merged :: after.filter (!rule.isSource ·))
          (.replacedMetrics (.here .metricList) metrics) := by
  -- The cut of the rule is the one at hand, as it stops at the first source.
  have cut : metrics.span (!rule.isSource ·) = (before, first :: after) := by
    have early : ∀ metric ∈ before, (!rule.isSource metric) = true := by simpa using starts.early
    rw [List.span_eq_takeWhile_dropWhile, starts.whole, List.takeWhile_append_of_pos early,
      List.dropWhile_append_of_pos early]
    simp [starts.source]
  rw [starts.sources, convert]
  simp only [cut]
  cases refused : (first :: after.filter rule.isSource).findSome? (rule.refusal? first) with
  -- A refused source ends the merge before anything is changed.
  | some failure => exact Or.inl ⟨failure, rfl, rfl⟩
  | none =>
    -- Sources that are not refused are of one kind, so that all of them are absorbed.
    have fits : ∀ source ∈ first :: after.filter rule.isSource,
        rule.refusal? first source = none := List.findSome?_eq_none_iff.1 refused
    obtain ⟨merged, absorbed, emptied, points⟩ := rule.exists_merged fun source member =>
      kind_of_not_refusal? (fits source (List.mem_cons_of_mem _ member))
    refine Or.inr ⟨fits, merged, emptied, points, ?_⟩
    simp only [gather_of_absorbed absorbed]
    rfl

end StartsAt

/-- The sources of a list are put together in one metric, which stands among the other metrics. -/
structure MergesInto (rule : MergeRule) (metrics before : List Metric) (merged : Metric)
    (after : List Metric) : Prop where
  /-- The other metrics are unchanged and in order. -/
  others : before ++ after = metrics.filter (!rule.isSource ·)
  /-- The merged metric has its name from the rule. -/
  name : merged.name = rule.metric
  /-- Every source was of its kind. -/
  kind : ∀ source ∈ metrics.filter rule.isSource, source.kind = merged.kind
  /-- No point of a source had the key of the mark. -/
  fresh : ∀ source ∈ metrics.filter rule.isSource,
    source.anyPoint (·.hasKey rule.byAttribute) = false
  /-- The merged metric has the marked points of all sources, in order. -/
  points : merged.dataPoints =
    (metrics.filter rule.isSource).flatMap fun source => (rule.tag source).dataPoints

/-- Sources that were put together are sources without the key of the mark. -/
theorem MergesInto.isSource_and_fresh {rule : MergeRule} {metrics before after : List Metric}
    {merged : Metric} (merges : rule.MergesInto metrics before merged after) :
    ∀ source ∈ metrics.filter rule.isSource, rule.isSource source ∧
      source.anyPoint (·.hasKey rule.byAttribute) = false := by
  intro source member
  exact ⟨(List.mem_filter.1 member).2, merges.fresh source member⟩

/-- A merge that finds sources and succeeds puts them together. -/
theorem exists_of_success {rule : MergeRule} {metrics result : List Metric}
    (found : ∃ metric ∈ metrics, rule.isSource metric)
    (success : (rule.convert metrics).success? = some result) :
    ∃ before merged after, result = before ++ merged :: after ∧
      rule.MergesInto metrics before merged after := by
  -- A source was found, so that the list is cut at the first one.
  obtain ⟨before, first, after, starts⟩ := exists_startsAt found
  rcases starts.convert_cases with
    ⟨failure, -, converted⟩ | ⟨fits, merged, emptied, points, converted⟩
  · -- A failed merge has no success.
    rw [converted] at success
    cases success
  · -- The parts are read off the outcome of the merge.
    rw [converted] at success
    cases success
    have kind : merged.kind = first.kind := Metric.kind_eq_of_emptied emptied
    refine ⟨before, merged, after.filter (!rule.isSource ·), rfl, ?_⟩
    constructor
    case others => exact starts.others.symm
    case name => exact congrArg Metric.name emptied
    case kind =>
      exact fun source member => (kind_of_not_refusal? (fits source member)).trans kind.symm
    case fresh => exact fun source member => anyPoint_of_not_refusal? (fits source member)
    case points => exact points

end MergeRule

end SchemaUplift
