import Mathlib.Data.List.Basic
import SchemaUplift.Proofs.Rename
import SchemaUplift.Proofs.Rule.Merging
import SchemaUplift.Proofs.Rule.Splitting

/-! A split by the sources of a merge undoes the merge. The mark at the end of a point's attributes
is the only attribute with its key, so it decides which source the point goes back to, and is taken
away there. -/

namespace SchemaUplift

/-! ### Marked points -/

namespace MergeRule

/-- The split of the merged metric by the same attribute, into the sources with their values. -/
@[simps]
def split (rule : MergeRule) (targets : List (String × String)) : SplitRule where
  metric := rule.metric
  byAttribute := rule.byAttribute
  targets := targets

variable {rule : MergeRule} {targets : List (String × String)}

/-- Of targets with distinct values the one with a value takes it. -/
theorem targetOf?_split (values : (targets.map (·.2)).Nodup) {group : Nat} {name value : String}
    (listed : targets[group]? = some (name, value)) :
    (rule.split targets).targetOf? value = some group := by
  refine SplitRule.targetOf?_eq_some_iff.2 ⟨⟨_, listed, rfl⟩, ?_⟩
  -- A later target with the value would be the same one.
  intro later target after found same
  rw [split_targets] at found
  have here : (targets.map (·.2))[group]? = some value := by simp [listed]
  have there : (targets.map (·.2))[later]? = some value := by simp [found, same]
  have within := (List.getElem?_eq_some_iff.1 here).1
  have equal : group = later := (List.getElem?_inj within values).1 (here.trans there.symm)
  omega

/-- The mark alone decides on a marked point, and is taken away. -/
theorem select_mark (values : (targets.map (·.2)).Nodup) {group : Nat} {name value : String}
    (listed : targets[group]? = some (name, value)) {point : DataPoint}
    (fresh : point.attributes.hasKey rule.byAttribute = false) :
    (rule.split targets).select (rule.mark value point).attributes =
      (point.attributes, some group) := by
  -- No attribute before the mark has its key, so the mark is the one that decides.
  have unmarked : point.attributes.findIdx? (·.key == rule.byAttribute) = none := by
    rw [List.findIdx?_eq_none_iff]
    simpa [Attributes.hasKey] using fresh
  have place : (rule.mark value point).attributes.findIdx? (·.key == rule.byAttribute) =
      some point.attributes.length := by
    simp [mark, List.findIdx?_append, unmarked]
  have chosen : (rule.mark value point).attributes[point.attributes.length]? =
      some ⟨rule.byAttribute, .string value⟩ := by
    simp [mark]
  have left : (rule.mark value point).attributes.eraseIdx point.attributes.length =
      point.attributes := by
    simp [mark, List.eraseIdx_append_of_length_le]
  have takes : (rule.split targets).targetOf? value = some group := targetOf?_split values listed
  simp only [SplitRule.select, split_byAttribute, place, chosen, left, Option.bind_some, Value.text,
    takes]

/-- A marked point is one that the split moves. -/
theorem selects_mark (values : (targets.map (·.2)).Nodup) {group : Nat} {name value : String}
    (listed : targets[group]? = some (name, value)) (point : DataPoint) :
    (rule.split targets).selects (rule.mark value point).attributes = true := by
  -- The mark is an attribute of the point, and a target has its value.
  have takes : (rule.split targets).targetOf? value = some group := targetOf?_split values listed
  simp [SplitRule.selects, mark, Value.text, takes]

/-- Marked points of one source all go to the group that takes its value, as they were before. -/
theorem sentTo_mark (values : (targets.map (·.2)).Nodup) {group : Nat} {name value : String}
    (listed : targets[group]? = some (name, value)) {points : List DataPoint}
    (fresh : ∀ point ∈ points, point.attributes.hasKey rule.byAttribute = false) (other : Nat) :
    Point.sentTo (rule.split targets).select other (points.map (rule.mark value)) =
      if group = other then points else [] := by
  -- The induction takes the first point, which goes where all do.
  induction points with
  | nil => simp [Point.sentTo]
  | cons point rest ih =>
    obtain ⟨first, others⟩ := List.forall_mem_cons.1 fresh
    have selected := select_mark values listed first
    -- The split takes the mark away again, and nothing else of the point.
    have unmarked : (rule.mark value point).selected (rule.split targets).select = point := by
      rw [Point.selected, selected]
      rfl
    have others := ih others
    rw [Point.sentTo] at others ⊢
    rw [List.map_cons, List.filter_cons, selected]
    -- The points go to the one group, or none of them does.
    by_cases same : group = other
    · simpa [same, unmarked] using others
    · simpa [same] using others

/-- No marked point of a source is kept. -/
theorem keptFrom_mark (values : (targets.map (·.2)).Nodup) {group : Nat} {name value : String}
    (listed : targets[group]? = some (name, value)) {points : List DataPoint}
    (fresh : ∀ point ∈ points, point.attributes.hasKey rule.byAttribute = false) :
    Point.keptFrom (rule.split targets).select targets.length (points.map (rule.mark value)) =
      [] := by
  -- The group of the source is one of those that take points.
  have within : group < targets.length := (List.getElem?_eq_some_iff.1 listed).1
  have none : (points.map (rule.mark value)).filter (fun point =>
      !((rule.split targets).select point.attributes).2.any (· < targets.length)) = [] := by
    rw [List.filter_eq_nil_iff]
    rintro _ marked
    obtain ⟨point, member, rfl⟩ := List.mem_map.1 marked
    simp [select_mark values listed (fresh point member), within]
  rw [Point.keptFrom, none, List.map_nil]

/-! ### Sources -/

/-- The targets of the split are the sources with their values, and the values can be told apart. -/
structure ListsSources (rule : MergeRule) (targets : List (String × String)) : Prop where
  /-- No name occurs twice. -/
  names : (targets.map (·.1)).Nodup
  /-- No value occurs twice. -/
  values : (targets.map (·.2)).Nodup
  /-- Each source stands with its value, and nothing else does. -/
  mem_iff : ∀ name value, (name, value) ∈ targets ↔ rule.sources.get? name = some value

/-- The entries of the table in any order list the sources. -/
theorem listsSources_of_perm (values : (rule.sources.entries.map (·.2)).Nodup)
    (same : targets.Perm rule.sources.entries) : rule.ListsSources targets where
  names := (same.map _).nodup_iff.2 rule.sources.nodup_keys
  values := (same.map _).nodup_iff.2 values
  mem_iff _ _ := same.mem_iff.trans Table.get?_eq_some_iff.symm

namespace ListsSources

/-- Every source has a group. -/
theorem exists_group (lists : rule.ListsSources targets) {metric : Metric}
    (source : rule.isSource metric) :
    ∃ (group : Nat) (value : String), targets[group]? = some (metric.name, value) ∧
      rule.sources.get? metric.name = some value := by
  -- A source stands in the table with its value, and so among the targets.
  obtain ⟨value, found⟩ := Option.isSome_iff_exists.1 source
  obtain ⟨group, listed⟩ := List.mem_iff_getElem?.1 ((lists.mem_iff _ _).2 found)
  exact ⟨group, value, listed, found⟩

/-- The group of a name has the points of the sources with that name. -/
theorem sentTo_flatMap_tag (lists : rule.ListsSources targets) {sources : List Metric}
    (fits : ∀ source ∈ sources, rule.isSource source ∧
      source.anyPoint (·.hasKey rule.byAttribute) = false)
    {group : Nat} {name value : String} (listed : targets[group]? = some (name, value)) :
    Point.sentTo (rule.split targets).select group
        (sources.flatMap fun source => (rule.tag source).dataPoints) =
      (sources.filter (·.name == name)).flatMap Metric.dataPoints := by
  -- The induction takes the points of the first source, which go to its own group.
  induction sources with
  | nil => rfl
  | cons source rest ih =>
    obtain ⟨⟨isSource, fresh⟩, others⟩ := List.forall_mem_cons.1 fits
    obtain ⟨own, mark, ownListed, found⟩ := lists.exists_group isSource
    -- Sources have one group exactly if they have one name, as the names of targets are distinct.
    have same : own = group ↔ source.name = name := by
      have ownName : (targets.map (·.1))[own]? = some source.name := by simp [ownListed]
      have groupName : (targets.map (·.1))[group]? = some name := by simp [listed]
      rw [← List.getElem?_inj (List.getElem?_eq_some_iff.1 ownName).1 lists.names, ownName,
        groupName, Option.some_inj]
    rw [List.flatMap_cons, dataPoints_tag found, Point.sentTo_append,
      sentTo_mark lists.values ownListed (Metric.anyPoint_eq_false_iff.1 fresh), ih others,
      List.filter_cons]
    -- The points of the source go to the group if that is the one of its name.
    by_cases here : source.name = name
    · simp [same.2 here, here]
    · simp [mt same.1 here, here]

/-- No point of a source is kept. -/
theorem keptFrom_flatMap_tag (lists : rule.ListsSources targets) {sources : List Metric}
    (fits : ∀ source ∈ sources, rule.isSource source ∧
      source.anyPoint (·.hasKey rule.byAttribute) = false) :
    Point.keptFrom (rule.split targets).select targets.length
      (sources.flatMap fun source => (rule.tag source).dataPoints) = [] := by
  -- Each source has a group, and the induction takes them one by one.
  induction sources with
  | nil => rfl
  | cons source rest ih =>
    obtain ⟨⟨isSource, fresh⟩, others⟩ := List.forall_mem_cons.1 fits
    obtain ⟨own, mark, ownListed, found⟩ := lists.exists_group isSource
    rw [List.flatMap_cons, dataPoints_tag found, Point.keptFrom_append,
      keptFrom_mark lists.values ownListed (Metric.anyPoint_eq_false_iff.1 fresh), ih others,
      List.append_nil]

end ListsSources

end MergeRule

/-! ### Metrics taken apart -/

namespace SplitRule

/-- Metrics of other names are left alone. -/
theorem flatMap_splitMetric_of_others {rule : SplitRule} {metrics : List Metric}
    (others : ∀ metric ∈ metrics, metric.name ≠ rule.metric) :
    metrics.flatMap rule.splitMetric = metrics := by
  -- Each metric is left as it is, so nothing is taken apart.
  rw [List.flatMap_congr fun metric member => splitMetric_of_other (others metric member)]
  exact List.flatMap_singleton' metrics

/-- A metric none of whose points is kept becomes the new metrics that have points. -/
theorem splitMetric_of_kept_nil {rule : SplitRule} {metric : Metric} {data : MetricData}
    (named : metric.name = rule.metric) (held : metric.data = some data)
    (moved : Point.keptFrom rule.select rule.targets.length data.dataPoints = []) :
    rule.splitMetric metric =
      (rule.targets.zipIdx.map (rule.part metric data)).filter fun part => 0 < part.pointCount := by
  -- The metric itself is left without points, and metrics without points are left out.
  have rest : ¬ 0 < (rule.remainder metric data).pointCount := by
    rw [Metric.pointCount_eq]
    show ¬ 0 < (data.partition rule.targets.length rule.select).1.dataPoints.length
    rw [MetricData.dataPoints_partition_fst, moved]
    simp
  rw [splitMetric_of_data named held, List.filter_cons_of_neg (by simpa using rest)]

/-- A split takes the one metric of its name apart if it selects some point. -/
theorem success?_convert_of_sole {rule : SplitRule} {before after : List Metric} {metric : Metric}
    (named : metric.name = rule.metric) (selected : metric.anyPoint rule.selects)
    (others : ∀ other ∈ before ++ after, other.name ≠ rule.metric) :
    (rule.convert (before ++ metric :: after)).success? =
      some (before ++ rule.splitMetric metric ++ after) := by
  -- The metric is one that the split has to take apart.
  have affected : ∃ other ∈ before ++ metric :: after,
      other.name = rule.metric ∧ other.anyPoint rule.selects = true :=
    ⟨metric, by simp, named, selected⟩
  -- Metrics before and after it have other names.
  have early : before.flatMap rule.splitMetric = before :=
    flatMap_splitMetric_of_others fun other member => others other (List.mem_append_left _ member)
  have late : after.flatMap rule.splitMetric = after :=
    flatMap_splitMetric_of_others fun other member => others other (List.mem_append_right _ member)
  rw [convert_of_selected affected, Attempt.success?_changed, List.flatMap_append,
    List.flatMap_cons, early, late, List.append_assoc]

/-- A split leaves everything alone if no metric of its name has a point. -/
theorem convert_of_void {rule : SplitRule} {metrics : List Metric}
    (void : ∀ metric ∈ metrics, metric.name = rule.metric → metric.dataPoints = []) :
    rule.convert metrics = .unchanged metrics := by
  -- No metric of the name has a point that could be selected.
  have idle : ¬ (metrics.any fun m => m.name == rule.metric && m.anyPoint rule.selects) = true := by
    rw [List.any_eq_true]
    rintro ⟨metric, member, selected⟩
    rw [Bool.and_eq_true, beq_iff_eq] at selected
    have none : metric.anyPoint rule.selects = false := by
      rw [Metric.anyPoint_eq_false_iff, void metric member selected.1]
      simp
    simp [none] at selected
  rw [convert, if_neg idle]

end SplitRule

/-! ### A merge and its split -/

/-- The points of the metrics with a name, in order. -/
def Metric.pointsNamed (name : String) (metrics : List Metric) : List DataPoint :=
  (metrics.filter (·.name == name)).flatMap dataPoints

namespace MergeRule

/-- A list has the sources of a merge apart again, and has the other metrics as they were. -/
structure TakenApart (rule : MergeRule) (metrics parted : List Metric) : Prop where
  /-- The metrics that are no sources are unchanged and in order. A merged metric may be left among
  them if it has no points. -/
  others : (parted.filter fun metric => !rule.isSource metric && metric.name != rule.metric) =
    metrics.filter (!rule.isSource ·)
  /-- For each source name with a point there is one metric. It has the points of the metrics that
  had the name, and is of their kind. -/
  sources : ∀ name, rule.sources.contains name → Metric.pointsNamed name metrics ≠ [] →
    ∃ part, parted.filter (·.name == name) = [part] ∧
      part.dataPoints = Metric.pointsNamed name metrics ∧
      ∀ metric ∈ metrics, metric.name = name → part.kind = metric.kind
  /-- No merged points are left: a metric with points is one that was no source, or is a source with
  its own points. -/
  unmerged : ∀ part ∈ parted, part.dataPoints ≠ [] →
    part ∈ metrics ∧ rule.isSource part = false ∨
      rule.isSource part ∧ part.dataPoints = Metric.pointsNamed part.name metrics

variable {rule : MergeRule} {targets : List (String × String)} {metrics : List Metric}

/-- Metrics that are no sources do not have the name of the merged metric. -/
theorem name_ne_of_others {rest : List Metric} (others : rest = metrics.filter (!rule.isSource ·))
    (named : ∀ metric ∈ metrics, metric.name = rule.metric → rule.isSource metric) :
    ∀ metric ∈ rest, metric.name ≠ rule.metric := by
  intro metric member taken
  rw [others, List.mem_filter] at member
  simp [named metric member.1 taken] at member

/-- Sources are taken apart by metrics that stand among those that are no sources. -/
theorem takenApart_of_parts {before parts after : List Metric}
    (others : before ++ after = metrics.filter (!rule.isSource ·))
    (named : ∀ metric ∈ metrics, metric.name = rule.metric → rule.isSource metric)
    (own : ∀ part ∈ parts, rule.isSource part ∨ part.name = rule.metric)
    (points : ∀ part ∈ parts, part.dataPoints ≠ [] →
      rule.isSource part ∧ part.dataPoints = Metric.pointsNamed part.name metrics)
    (restored : ∀ name, rule.sources.contains name → Metric.pointsNamed name metrics ≠ [] →
      ∃ part, parts.filter (·.name == name) = [part] ∧
        part.dataPoints = Metric.pointsNamed name metrics ∧
        ∀ metric ∈ metrics, metric.name = name → part.kind = metric.kind) :
    rule.TakenApart metrics (before ++ parts ++ after) := by
  -- What stands around the parts was there before and is no source.
  have untouched : ∀ metric ∈ before ++ after, metric ∈ metrics ∧ rule.isSource metric = false := by
    intro metric member
    rw [others, List.mem_filter] at member
    simpa using member
  -- The test that tells the other metrics passes them and fails on every part.
  have kept : ∀ metric ∈ before ++ after,
      (!rule.isSource metric && metric.name != rule.metric) = true := by
    intro metric member
    simp [(untouched metric member).2, name_ne_of_others others named metric member]
  refine ⟨?_, ?_, ?_⟩
  · -- Around the parts all metrics pass the test, and among them none does.
    have early : before.filter (fun metric =>
        !rule.isSource metric && metric.name != rule.metric) = before :=
      List.filter_eq_self.2 fun metric member => kept metric (List.mem_append_left _ member)
    have late : after.filter (fun metric =>
        !rule.isSource metric && metric.name != rule.metric) = after :=
      List.filter_eq_self.2 fun metric member => kept metric (List.mem_append_right _ member)
    have none : parts.filter (fun metric =>
        !rule.isSource metric && metric.name != rule.metric) = [] := by
      rw [List.filter_eq_nil_iff]
      intro part member
      rcases own part member with source | name
      · simp [source]
      · simp [name]
    rw [List.filter_append, List.filter_append, early, late, none, List.append_nil, others]
  · -- A source name is that of one part.
    intro name listed some
    obtain ⟨part, single, same⟩ := restored name listed some
    refine ⟨part, ?_, same⟩
    -- No metric that is no source has the name of one.
    have none (list : List Metric) (within : ∀ metric ∈ list, metric ∈ before ++ after) :
        list.filter (·.name == name) = [] := by
      rw [List.filter_eq_nil_iff]
      intro metric member same
      have notSource := (untouched metric (within metric member)).2
      rw [isSource, eq_of_beq same, listed] at notSource
      cases notSource
    rw [List.filter_append, List.filter_append, none before fun _ => List.mem_append_left _,
      none after fun _ => List.mem_append_right _, single]
    rfl
  · -- A metric of the new list stands before the parts, among them or after them.
    intro part member some
    rw [List.append_assoc, List.mem_append, List.mem_append] at member
    rcases member with early | moved | late
    · exact Or.inl (untouched part (List.mem_append_left _ early))
    · exact Or.inr (points part moved some)
    · exact Or.inl (untouched part (List.mem_append_right _ late))

/-- New metrics have names of sources. -/
theorem ListsSources.isSource_part (lists : rule.ListsSources targets)
    {target : (String × String) × Nat} (member : target ∈ targets.zipIdx) (merged : Metric)
    (data : MetricData) : rule.isSource ((rule.split targets).part merged data target) := by
  -- The target stands among the sources with its value.
  obtain ⟨⟨name, value⟩, group⟩ := target
  have listed := List.mem_of_getElem? (List.mk_mem_zipIdx_iff_getElem?.1 member)
  exact Option.isSome_iff_exists.2 ⟨value, (lists.mem_iff name value).1 listed⟩

/-- Each source name has one new metric. -/
theorem ListsSources.filter_part (lists : rule.ListsSources targets)
    {target : (String × String) × Nat} (member : target ∈ targets.zipIdx) (merged : Metric)
    (data : MetricData) :
    (targets.zipIdx.map ((rule.split targets).part merged data)).filter
        (·.name == target.1.1) = [(rule.split targets).part merged data target] := by
  -- The new metrics have the names of the targets, which are distinct.
  have names : (targets.zipIdx.map ((rule.split targets).part merged data)).map (·.name) =
      targets.map (·.1) := by
    rw [List.map_map]
    conv_rhs => rw [← List.zipIdx_map_fst 0 targets, List.map_map]
    rfl
  exact filter_key_eq_singleton (names ▸ lists.names) (List.mem_map_of_mem member)

/-- No points stand under a source name if no source has points. -/
theorem pointsNamed_of_void (void : ∀ metric ∈ metrics, rule.isSource metric →
      metric.dataPoints = []) {name : String} (listed : rule.sources.contains name) :
    Metric.pointsNamed name metrics = [] := by
  -- Metrics under a source name are sources, and those have no points.
  rw [Metric.pointsNamed, List.flatMap_eq_nil_iff]
  intro metric member
  obtain ⟨origin, same⟩ := List.mem_filter.1 member
  refine void metric origin ?_
  rw [isSource, eq_of_beq same, listed]

/-- A list without sources is not split. -/
theorem exists_takenApart_of_no_source
    (named : ∀ metric ∈ metrics, metric.name = rule.metric → rule.isSource metric)
    (absent : ∀ metric ∈ metrics, rule.isSource metric = false) :
    ∃ parted, ((rule.split targets).convert metrics).success? = some parted ∧
      rule.TakenApart metrics parted := by
  -- A metric with the name of the merged one would be a source, of which there are none.
  have idle : ∀ metric ∈ metrics, metric.name = (rule.split targets).metric →
      metric.dataPoints = [] := by
    intro metric member taken
    have source := named metric member taken
    simp [absent metric member] at source
  -- All metrics of the list are among those that are no sources.
  have others : metrics ++ [] = metrics.filter (!rule.isSource ·) := by
    rw [List.append_nil, eq_comm, List.filter_eq_self]
    simpa using absent
  -- The list itself has everything apart, since nothing was put together.
  have parts : rule.TakenApart metrics (metrics ++ [] ++ []) := by
    refine takenApart_of_parts others named (by simp) (by simp) ?_
    intro name listed some
    refine absurd (pointsNamed_of_void ?_ listed) some
    intro metric member source
    simp [absent metric member] at source
  refine ⟨metrics, ?_, ?_⟩
  · rw [SplitRule.convert_of_void idle, Attempt.success?_unchanged]
  · simpa using parts

section Merged

variable {before after : List Metric} {merged : Metric}

/-- A merged metric without points is not split. -/
theorem MergesInto.exists_takenApart_of_void (merges : rule.MergesInto metrics before merged after)
    (named : ∀ metric ∈ metrics, metric.name = rule.metric → rule.isSource metric)
    (none : merged.dataPoints = []) :
    ∃ parted, ((rule.split targets).convert (before ++ merged :: after)).success? = some parted ∧
      rule.TakenApart metrics parted := by
  -- No source has a point, since the merged metric has the points of all.
  have void : ∀ metric ∈ metrics, rule.isSource metric → metric.dataPoints = [] := by
    intro metric member source
    have points := merges.points
    rw [none, eq_comm, List.flatMap_eq_nil_iff] at points
    -- Without marked points there were no points to mark.
    obtain ⟨value, listed⟩ := Option.isSome_iff_exists.1 source
    have marked := points metric (List.mem_filter.2 ⟨member, source⟩)
    rw [dataPoints_tag listed, List.map_eq_nil_iff] at marked
    exact marked
  -- No metric of its name has a point to be moved.
  have idle : ∀ metric ∈ before ++ merged :: after,
      metric.name = (rule.split targets).metric → metric.dataPoints = [] := by
    intro metric member taken
    by_cases isMerged : metric = merged
    · rw [isMerged, none]
    · have other : metric ∈ before ++ after := by simpa [isMerged] using member
      exact absurd taken (name_ne_of_others merges.others named metric other)
  -- The merged metric itself is left, without points.
  have parts : rule.TakenApart metrics (before ++ [merged] ++ after) := by
    refine takenApart_of_parts merges.others named ?_ ?_ ?_
    · simp [merges.name]
    · simp [none]
    · intro name listed some
      exact absurd (pointsNamed_of_void void listed) some
  refine ⟨before ++ merged :: after, ?_, ?_⟩
  · rw [SplitRule.convert_of_void idle, Attempt.success?_unchanged]
  · simpa using parts

/-- The split selects a point of a merged metric that has points. -/
theorem ListsSources.anyPoint_selects (lists : rule.ListsSources targets)
    (merges : rule.MergesInto metrics before merged after) (filled : merged.dataPoints ≠ []) :
    merged.anyPoint (rule.split targets).selects := by
  -- Some point of the merged metric was marked with the value of its source.
  obtain ⟨point, member⟩ := List.exists_mem_of_ne_nil _ filled
  have origin := member
  rw [merges.points] at origin
  obtain ⟨source, within, marked⟩ := List.mem_flatMap.1 origin
  obtain ⟨group, value, listed, found⟩ := lists.exists_group (List.mem_filter.1 within).2
  rw [dataPoints_tag found] at marked
  obtain ⟨unmarked, -, rfl⟩ := List.mem_map.1 marked
  exact Metric.anyPoint_eq_true_iff.2 ⟨_, member, selects_mark lists.values listed unmarked⟩

/-- The new metric of a source name has the points of the metrics that had the name. -/
theorem ListsSources.dataPoints_part (lists : rule.ListsSources targets)
    (merges : rule.MergesInto metrics before merged after) {data : MetricData}
    (whole : data.dataPoints = merged.dataPoints) {target : (String × String) × Nat}
    (member : target ∈ targets.zipIdx) :
    ((rule.split targets).part merged data target).dataPoints =
      Metric.pointsNamed target.1.1 metrics := by
  -- The group of the target is the one that takes the value of the name.
  obtain ⟨⟨name, value⟩, group⟩ := target
  have listed : targets[group]? = some (name, value) := List.mk_mem_zipIdx_iff_getElem?.1 member
  -- Metrics with the name are all sources.
  have named : (metrics.filter rule.isSource).filter (·.name == name) =
      metrics.filter (·.name == name) := by
    rw [List.filter_filter]
    refine List.filter_congr fun metric _ => ?_
    cases same : metric.name == name with
    | false => rfl
    | true =>
      have found := (lists.mem_iff name value).1 (List.mem_of_getElem? listed)
      simp [isSource, Table.contains, eq_of_beq same, found]
  -- The group has the points that were marked for it, as they were before.
  show (data.sentTo (rule.split targets).select group).dataPoints = _
  rw [MetricData.dataPoints_sentTo, whole, merges.points,
    lists.sentTo_flatMap_tag merges.isSource_and_fresh listed, named]
  rfl

/-- A merged metric with points is split into the metrics of its sources. -/
theorem ListsSources.exists_takenApart (lists : rule.ListsSources targets)
    (merges : rule.MergesInto metrics before merged after)
    (named : ∀ metric ∈ metrics, metric.name = rule.metric → rule.isSource metric)
    (filled : merged.dataPoints ≠ []) :
    ∃ parted, ((rule.split targets).convert (before ++ merged :: after)).success? = some parted ∧
      rule.TakenApart metrics parted := by
  -- Points stand in data, so the merged metric has some.
  obtain ⟨data, held⟩ : ∃ data, merged.data = some data := by
    cases held : merged.data with
    | none => simp [Metric.dataPoints, held] at filled
    | some data => exact ⟨data, rfl⟩
  have whole : data.dataPoints = merged.dataPoints := (Metric.dataPoints_of_data held).symm
  let all := targets.zipIdx.map ((rule.split targets).part merged data)
  let parts := all.filter fun part => 0 < part.pointCount
  -- All points have marks and go to groups, so that nothing of the merged metric is left.
  have cut : (rule.split targets).splitMetric merged = parts := by
    refine SplitRule.splitMetric_of_kept_nil merges.name held ?_
    rw [whole, merges.points]
    exact lists.keptFrom_flatMap_tag merges.isSource_and_fresh
  -- It is the one metric of its name, and some of its points are selected.
  have converted := SplitRule.success?_convert_of_sole merges.name
    (lists.anyPoint_selects merges filled) (name_ne_of_others merges.others named)
  rw [cut] at converted
  refine ⟨before ++ parts ++ after, converted, takenApart_of_parts merges.others named ?_ ?_ ?_⟩
  · -- Every part has the name of a source.
    intro part member
    obtain ⟨target, within, rfl⟩ := List.mem_map.1 (List.mem_of_mem_filter member)
    exact Or.inl (lists.isSource_part within merged data)
  · -- It has the points of the sources with that name.
    intro part member _
    obtain ⟨target, within, rfl⟩ := List.mem_map.1 (List.mem_of_mem_filter member)
    exact ⟨lists.isSource_part within merged data, lists.dataPoints_part merges whole within⟩
  · -- For a source name with points there is one part, of the kind of the sources.
    intro name listed some
    obtain ⟨value, found⟩ := Option.isSome_iff_exists.1 listed
    obtain ⟨group, place⟩ := List.mem_iff_getElem?.1 ((lists.mem_iff name value).2 found)
    have target : ((name, value), group) ∈ targets.zipIdx :=
      List.mk_mem_zipIdx_iff_getElem?.2 place
    have points := lists.dataPoints_part merges whole target
    refine ⟨(rule.split targets).part merged data ((name, value), group), ?_, points, ?_⟩
    · -- The new metric of the name has points, so that it is not left out.
      have counted :
          0 < ((rule.split targets).part merged data ((name, value), group)).pointCount := by
        rw [Metric.pointCount_eq, points]
        exact List.length_pos_iff.2 some
      have swapped : parts.filter (·.name == name) =
          (all.filter (·.name == name)).filter fun part => 0 < part.pointCount := by
        rw [List.filter_filter, List.filter_filter]
        exact List.filter_congr fun _ _ => Bool.and_comm _ _
      rw [swapped, lists.filter_part target merged data]
      simpa using counted
    · -- The part is of the kind of the merged metric, and that is the kind of every source.
      intro metric member same
      have source : metric ∈ metrics.filter rule.isSource := by
        rw [List.mem_filter, isSource, same]
        exact ⟨member, listed⟩
      rw [SplitRule.kind_part _ held, merges.kind metric source]

end Merged

/-- A split by the sources of a merge succeeds on the merged list and takes the sources apart, for
sources whose values can be told apart, and if no metric had the name of the merged metric without
being a source. -/
theorem takenApart_of_convert (values : (rule.sources.entries.map (·.2)).Nodup)
    (same : targets.Perm rule.sources.entries)
    (named : ∀ metric ∈ metrics, metric.name = rule.metric → rule.isSource metric)
    {result : List Metric} (success : (rule.convert metrics).success? = some result) :
    ∃ parted, ((rule.split targets).convert result).success? = some parted ∧
      rule.TakenApart metrics parted := by
  -- The entries of the table list each source once.
  have lists := listsSources_of_perm values same
  -- Without sources nothing was merged, and without points nothing is split.
  by_cases found : ∃ metric ∈ metrics, rule.isSource metric
  · obtain ⟨before, merged, after, rfl, merges⟩ := exists_of_success found success
    by_cases none : merged.dataPoints = []
    · exact merges.exists_takenApart_of_void named none
    · exact lists.exists_takenApart merges named none
  · have absent : ∀ metric ∈ metrics, rule.isSource metric = false := by simpa using found
    rw [convert_of_no_source absent, Attempt.success?_unchanged] at success
    cases success
    exact exists_takenApart_of_no_source named absent

/-- A merge into one of its own sources. -/
def cpuTime : MergeRule :=
  ⟨"cpu.time", "state", .ofList [("cpu.time", "total"), ("cpu.user", "user"), ("cpu.idle", "idle")]⟩

/-- A gauge of processor times. -/
def cpuGauge (name : String) (times : List UInt64) : Metric :=
  ⟨name, "", "s", [], some (.numbers .gauge (times.map fun time => ⟨[], 0, time, 0, none⟩))⟩

/-- Sources in two places, one of them without points, and a metric that is no source. -/
def cpuGauges : List Metric :=
  [cpuGauge "cpu.user" [1, 2], cpuGauge "load" [3], cpuGauge "cpu.time" [4], cpuGauge "cpu.idle" [],
    cpuGauge "cpu.user" [5]]

/-- The points of both metrics of user time are in one metric again. -/
theorem takenApart_of_convert_cpuTime :
    ∃ merged parted, (cpuTime.convert cpuGauges).success? = some merged ∧
      ((cpuTime.split cpuTime.sources.entries).convert merged).success? = some parted ∧
      cpuTime.TakenApart cpuGauges parted ∧
      ∃ part, parted.filter (·.name == "cpu.user") = [part] ∧
        part.dataPoints.map (·.time) = [1, 2, 5] := by
  -- The merge succeeds, and then the theorem takes the sources apart.
  obtain ⟨merged, success⟩ := Option.isSome_iff_exists.1
    (show (cpuTime.convert cpuGauges).success?.isSome by decide +kernel)
  obtain ⟨parted, split, apart⟩ := takenApart_of_convert (by decide +kernel)
    (.refl cpuTime.sources.entries) (by decide +kernel) success
  -- The source has points, so it has a metric of its own again.
  obtain ⟨part, single, points, -⟩ := apart.sources "cpu.user" (by decide +kernel)
    (List.ne_nil_of_length_pos (by decide +kernel))
  exact ⟨merged, parted, success, split, apart, part, single, by rw [points]; decide +kernel⟩

end MergeRule

end SchemaUplift
