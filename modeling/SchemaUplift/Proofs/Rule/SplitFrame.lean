import SchemaUplift.Proofs.Rule.SplitOutcome

/-! What a split leaves alone. A metric of which no point moves stays where it is, unless it has no
points to begin with: such a metric of the name is left out whenever the split acts on the list. -/

namespace SchemaUplift.SplitRule

/-- Whether the metric is one to split and some point of it moves. -/
def Gives (rule : SplitRule) (metric : Metric) : Prop :=
  metric.name = rule.metric ∧ ∃ point ∈ metric.dataPoints, rule.moves point.attributes = true

instance (rule : SplitRule) (metric : Metric) : Decidable (rule.Gives metric) :=
  inferInstanceAs (Decidable (_ ∧ _))

/-- Whether the metric is one to split and holds data without points. -/
def IsVoid (rule : SplitRule) (metric : Metric) : Prop :=
  metric.name = rule.metric ∧ metric.data ≠ none ∧ metric.dataPoints = []

instance (rule : SplitRule) (metric : Metric) : Decidable (rule.IsVoid metric) :=
  inferInstanceAs (Decidable (_ ∧ _))

/-- Whether the metric is one to split and some attribute of a point, be it the first with the
deciding key or a later one, has that key and a value that a new metric is listed with. -/
def Mentions (rule : SplitRule) (metric : Metric) : Prop :=
  metric.name = rule.metric ∧ ∃ point ∈ metric.dataPoints, ∃ entry ∈ point.attributes,
    entry.key = rule.byAttribute ∧ ∃ target ∈ rule.targets, target.2 = entry.value.text

instance (rule : SplitRule) (metric : Metric) : Decidable (rule.Mentions metric) :=
  inferInstanceAs (Decidable (_ ∧ _))

/-- Whether the split acts on the metrics: some attribute of one of them calls for it. -/
def Acts (rule : SplitRule) (metrics : List Metric) : Prop :=
  ∃ metric ∈ metrics, rule.Mentions metric

instance (rule : SplitRule) (metrics : List Metric) : Decidable (rule.Acts metrics) :=
  inferInstanceAs (Decidable (∃ metric ∈ metrics, rule.Mentions metric))

/-- What the result has in the place of a metric of which no point moves. -/
structure Spares (rule : SplitRule) (metrics : List Metric) (metric : Metric)
    (parts : List Metric) : Prop where
  /-- The metric stays as it is, unless it is one to split that has no points while the split
  acts. -/
  stays : ¬ rule.Gives metric → ¬ (rule.IsVoid metric ∧ rule.Acts metrics) → parts = [metric]
  /-- A metric to split that has no points goes when the split acts. -/
  goes : rule.IsVoid metric → rule.Acts metrics → parts = []

variable {rule : SplitRule}

/-! ### Metrics that are spared -/

/-- Points that do not move are all kept. -/
theorem keptFrom_of_still {points : List DataPoint}
    (still : ∀ point ∈ points, rule.moves point.attributes = false) :
    Point.keptFrom rule.select rule.targets.length points = points := by
  -- What is kept is what does not move, here everything.
  rw [keptFrom_select]
  exact List.filter_eq_self.2 fun point member => by simp [still point member]

/-- Points that do not move are sent to no group. -/
theorem sentTo_of_still {points : List DataPoint}
    (still : ∀ point ∈ points, rule.moves point.attributes = false) (group : Nat) :
    Point.sentTo rule.select group points = [] := by
  rw [Point.sentTo, List.map_eq_nil_iff, List.filter_eq_nil_iff]
  intro point member
  -- A point for which the selector names a group is one that moves.
  rcases rule.select_cases point.attributes with ⟨-, selected⟩ | ⟨-, -, -, -, goes, -⟩
  · -- A point for which nothing is selected is sent nowhere.
    simp [selected]
  · simp [still point member] at goes

/-- A metric to split of which no point moves is left alone if it has points, and left out if it has
none. -/
theorem splitMetric_of_still {metric : Metric} (named : metric.name = rule.metric)
    (held : metric.data ≠ none)
    (still : ∀ point ∈ metric.dataPoints, rule.moves point.attributes = false) :
    rule.splitMetric metric = [metric].filter fun part => 0 < part.pointCount := by
  obtain ⟨data, held⟩ := Option.ne_none_iff_exists'.1 held
  -- What is left of the metric is the metric.
  have whole : rule.remainder metric data = metric := by
    have retains : rule.Retains metric (rule.remainder metric data) := retains_remainder held
    refine Metric.eq_of_emptied retains.emptied (retains.points.trans ?_)
    rw [← keptFrom_select, keptFrom_of_still still]
  -- No new metric gets a point.
  have void : (rule.targets.zipIdx.map (rule.part metric data)).filter
      (fun part => 0 < part.pointCount) = [] := by
    refine List.filter_eq_nil_iff.2 fun part member => ?_
    obtain ⟨target, -, rfl⟩ := List.mem_map.1 member
    have points : (rule.part metric data target).dataPoints = [] := by
      rw [Metric.dataPoints_of_data held] at still
      exact (data.dataPoints_sentTo _ _).trans (sentTo_of_still still target.2)
    simp [Metric.pointCount_eq, points]
  -- The metric comes first, and is left out if it has no points.
  rw [splitMetric_of_data named held, whole, List.filter_cons, void, List.filter_cons,
    List.filter_nil]

/-- A metric of which no point moves is left alone, unless it has no points to begin with. -/
theorem splitMetric_of_not_gives {metric : Metric} (keeps : ¬ rule.Gives metric)
    (filled : ¬ rule.IsVoid metric) : rule.splitMetric metric = [metric] := by
  -- A metric of the name is taken apart even if nothing moves, and then has to have points.
  rcases rule.splitMetric_cases metric with ⟨-, alone⟩ | ⟨data, named, held, -⟩
  · -- The metric has another name or no data.
    exact alone
  · -- The metric is one to split, so that it has points, none of which moves.
    have held : metric.data ≠ none := by simp [held]
    have still : ∀ point ∈ metric.dataPoints, rule.moves point.attributes = false :=
      fun point member => Bool.eq_false_iff.2 fun goes => keeps ⟨named, point, member, goes⟩
    have some : 0 < metric.pointCount := by
      rw [Metric.pointCount_eq, List.length_pos_iff]
      exact fun none => filled ⟨named, held, none⟩
    rw [splitMetric_of_still named held still]
    exact List.filter_cons_of_pos (by simpa using some)

/-- A metric to split that has no points is left out. -/
theorem splitMetric_of_isVoid {metric : Metric} (void : rule.IsVoid metric) :
    rule.splitMetric metric = [] := by
  obtain ⟨named, held, none⟩ := void
  -- Without points nothing moves, and nothing is left.
  rw [splitMetric_of_still named held (by simp [none])]
  simp [Metric.pointCount_eq, none]

/-! ### Lists of metrics -/

/-- An attribute selects a new metric if it has the deciding key and a value that is listed. -/
theorem anyPoint_selects_iff {metric : Metric} :
    metric.anyPoint rule.selects = true ↔
      ∃ point ∈ metric.dataPoints, ∃ entry ∈ point.attributes,
        entry.key = rule.byAttribute ∧ ∃ target ∈ rule.targets, target.2 = entry.value.text := by
  -- A value is taken by some target exactly if one is listed with it.
  have listed (text : String) :
      (rule.targetOf? text).isSome = true ↔ ∃ target ∈ rule.targets, target.2 = text := by
    rw [Option.isSome_iff_ne_none, Ne, targetOf?_eq_none_iff]
    push Not
    rfl
  rw [Metric.anyPoint_eq_true_iff]
  simp only [selects, List.any_eq_true, Bool.and_eq_true, beq_iff_eq, listed]

/-- A metric of which a point moves has an attribute that selects a new metric. -/
theorem Gives.mentions {metric : Metric} (gives : rule.Gives metric) : rule.Mentions metric := by
  obtain ⟨named, point, member, goes⟩ := gives
  -- The attribute that decides is one that selects.
  refine ⟨named, anyPoint_selects_iff.1 ?_⟩
  exact Metric.anyPoint_eq_true_iff.2 ⟨point, member, selects_of_moves goes⟩

/-- A split that does not act changes nothing. -/
theorem convert_of_not_acts {metrics : List Metric} (idle : ¬ rule.Acts metrics) :
    rule.convert metrics = .unchanged metrics := by
  -- The guard of a split looks at all attributes of a point, not only at the one that decides.
  refine if_neg fun selected => idle ?_
  obtain ⟨metric, member, selected⟩ := List.any_eq_true.1 selected
  rw [Bool.and_eq_true, beq_iff_eq, anyPoint_selects_iff] at selected
  exact ⟨metric, member, selected⟩

/-- A split that acts takes every metric apart. -/
theorem convert_of_acts {metrics : List Metric} (acts : rule.Acts metrics) :
    rule.convert metrics = .changed (metrics.flatMap rule.splitMetric)
      (.replacedMetrics (.here .metricList) metrics) := by
  -- The guard finds the attribute that calls for the split.
  obtain ⟨metric, member, named, mentions⟩ := acts
  exact convert_of_selected ⟨metric, member, named, anyPoint_selects_iff.2 mentions⟩

/-- A split makes a single record, of the list as it was, if some attribute of a point of a metric
to split selects a new metric, which is so whenever a point moves. Otherwise it leaves the list as
it is. Every metric of which no point moves is left in its place as it was, but for metrics to split
that have no points, which are left out exactly when there is a record. -/
theorem frame_convert (rule : SplitRule) (metrics : List Metric) :
    (rule.Acts metrics → rule.convert metrics =
      .changed (rule.convert metrics).value (.replacedMetrics (.here .metricList) metrics)) ∧
    (¬ rule.Acts metrics → rule.convert metrics = .unchanged metrics) ∧
    ((∃ metric ∈ metrics, rule.Gives metric) → rule.Acts metrics) ∧
    ∃ parted, (rule.convert metrics).value = parted.flatten ∧
      List.Forall₂ (rule.Spares metrics) metrics parted := by
  refine ⟨fun acts => ?_, convert_of_not_acts, ?_, ?_⟩
  · -- The record of a split that acts is of the list as it was.
    rw [convert_of_acts acts]
    rfl
  · -- A point that moves has an attribute that the guard finds.
    rintro ⟨metric, member, gives⟩
    exact ⟨metric, member, gives.mentions⟩
  · -- Whether the guard lets the split act is all that has to be told apart.
    by_cases acts : rule.Acts metrics
    · -- Every metric is taken apart, and its parts are what is left of it.
      refine ⟨metrics.map rule.splitMetric, ?_, ?_⟩
      · rw [convert_of_acts acts, ← List.flatMap_def]
        rfl
      refine List.forall₂_map_right_iff.2 (List.forall₂_same.2 fun metric _ => ⟨?_, ?_⟩)
      · -- It is one to split only if it has points, and otherwise it stays.
        exact fun keeps filled => splitMetric_of_not_gives keeps fun void => filled ⟨void, acts⟩
      · exact fun void _ => splitMetric_of_isVoid void
    · -- Nothing is touched, and every metric stands in its own place.
      refine ⟨metrics.map ([·]), ?_, ?_⟩
      · rw [convert_of_not_acts acts, ← List.flatMap_def]
        exact (List.flatMap_singleton' metrics).symm
      · refine List.forall₂_map_right_iff.2 (List.forall₂_same.2 fun metric _ => ⟨?_, ?_⟩)
        · -- Every metric stays.
          exact fun _ _ => rfl
        · -- The split would have to act.
          exact fun _ acting => absurd acting acts

/-- A gauge with one point whose first direction is not listed and whose second one is. -/
def twofoldGauge : Metric :=
  netGauge "net.io" [(1, [⟨"direction", .string "both"⟩, ⟨"direction", .string "in"⟩])]

/-- Points of one metric move; another metric of the name has none and is left out, and a metric of
another name stays. Where that one stands alone there is no record. Where the second direction of a
point has a listed value, there is a record and a metric without points is left out, though no point
moves. -/
theorem frame_convert_netGauges :
    (byDirection.Acts netGauges ∧
      ∃ parted : List (List Metric), byDirection.convert netGauges =
          .changed parted.flatten (.replacedMetrics (.here .metricList) netGauges) ∧
        parted[0]? = netGauges[0]?.map ([·]) ∧ parted[2]? = some []) ∧
    (¬ byDirection.Acts (netGauges.take 1) ∧
      byDirection.convert (netGauges.take 1) = .unchanged (netGauges.take 1)) ∧
    (¬ ∃ metric ∈ [twofoldGauge, netGauge "net.io" []], byDirection.Gives metric) ∧
    byDirection.convert [twofoldGauge, netGauge "net.io" []] = .changed [twofoldGauge]
      (.replacedMetrics (.here .metricList) [twofoldGauge, netGauge "net.io" []]) := by
  have giving : ∃ metric ∈ netGauges, byDirection.Gives metric := by decide +kernel
  have silent : ¬ byDirection.Acts (netGauges.take 1) := by decide +kernel
  have still : ¬ ∃ metric ∈ [twofoldGauge, netGauge "net.io" []], byDirection.Gives metric := by
    decide +kernel
  refine ⟨?_, ⟨silent, (frame_convert _ _).2.1 silent⟩, still, ?_⟩
  · -- The first list has points that move.
    obtain ⟨recorded, -, acting, parted, flat, spares⟩ := frame_convert byDirection netGauges
    have acts := acting giving
    refine ⟨acts, parted, flat ▸ recorded acts, ?_⟩
    -- The metrics stand in the list one after the other.
    obtain _ | ⟨load, _ | ⟨io, _ | ⟨empty, _ | _⟩⟩⟩ := spares
    have stays := load.stays (by decide +kernel) (by decide +kernel)
    have goes := empty.goes (by decide +kernel) acts
    exact ⟨congrArg some stays, congrArg some goes⟩
  · -- The second list has none, but a later attribute of a point is listed.
    have acts : byDirection.Acts [twofoldGauge, netGauge "net.io" []] := by decide +kernel
    obtain ⟨recorded, -, -, parted, flat, spares⟩ :=
      frame_convert byDirection [twofoldGauge, netGauge "net.io" []]
    obtain _ | ⟨twofold, _ | ⟨empty, _ | _⟩⟩ := spares
    obtain rfl := twofold.stays (by decide +kernel) (by decide +kernel)
    obtain rfl := empty.goes (by decide +kernel) acts
    rw [recorded acts, flat]
    rfl

/-- There may be a record though no point moves, if a point has the deciding key twice; and a metric
of which no point moves may be missing afterwards, if it has no points. -/
theorem not_frame_twofoldGauge :
    (¬ ∀ (rule : SplitRule) (metrics : List Metric),
      (rule.convert metrics).records ≠ [] ↔ ∃ metric ∈ metrics, rule.Gives metric) ∧
    ¬ ∀ (rule : SplitRule) (metrics : List Metric), ∀ metric ∈ metrics,
      ¬ rule.Gives metric → metric ∈ (rule.convert metrics).value := by
  constructor
  · -- The second direction of the only point is listed, and the first one is not.
    intro always
    have recorded : (byDirection.convert [twofoldGauge]).records ≠ [] := by decide +kernel
    have still : ¬ ∃ metric ∈ [twofoldGauge], byDirection.Gives metric := by decide +kernel
    exact still ((always byDirection [twofoldGauge]).1 recorded)
  · -- A metric without points gives none, and is left out.
    intro always
    have still : ¬ byDirection.Gives (netGauge "net.io" []) := by decide +kernel
    have present := always byDirection netGauges _ (by simp [netGauges]) still
    -- Every metric that is left has points.
    have filled : ∀ metric ∈ (byDirection.convert netGauges).value, metric.pointCount ≠ 0 := by
      decide +kernel
    exact filled _ present rfl

end SchemaUplift.SplitRule
