import Mathlib.Data.List.Forall2
import SchemaUplift.Proofs.Rule.Splitting

/-! What a split does with a list of metrics. A point moves by the value of the first attribute with
the deciding key, which it leaves behind, and a point that no new metric takes stays where it is. -/

namespace SchemaUplift.SplitRule

/-! ### Points that move -/

/-- The text of the value of the first attribute with the deciding key. -/
def decider? (rule : SplitRule) (attributes : Attributes) : Option String :=
  (attributes.find? (·.key == rule.byAttribute)).map (·.value.text)

/-- Whether a point with the attributes moves: some new metric is listed with the text that
decides. -/
def moves (rule : SplitRule) (attributes : Attributes) : Bool :=
  (rule.decider? attributes).any fun text => rule.targets.any (·.2 == text)

/-- The point without the first attribute with the deciding key. -/
def released (rule : SplitRule) (point : DataPoint) : DataPoint :=
  { point with attributes := point.attributes.eraseP (·.key == rule.byAttribute) }

variable {rule : SplitRule}

/-- A point that does not move is left alone by every group. One that moves goes to the group that
takes the text that decides, without the attribute that has it. -/
theorem select_cases (rule : SplitRule) (attributes : Attributes) :
    (rule.moves attributes = false ∧ rule.select attributes = (attributes, none)) ∨
    ∃ text group, rule.decider? attributes = some text ∧ rule.targetOf? text = some group ∧
      rule.moves attributes = true ∧
      rule.select attributes =
        (attributes.eraseP (·.key == rule.byAttribute), some group) := by
  rw [moves, select, decider?, List.find?_eq_bind_findIdx?_getElem?, List.eraseP_eq_eraseIdx]
  -- Either no attribute has the key, or the first one that has it is looked at.
  cases place : attributes.findIdx? (·.key == rule.byAttribute) with
  | none => exact Or.inl ⟨rfl, rfl⟩
  | some position =>
    have within : position < attributes.length := by
      obtain ⟨within, -⟩ := List.findIdx?_eq_some_iff_findIdx_eq.1 place
      exact within
    have listed : attributes[position]? = some attributes[position] :=
      List.getElem?_eq_getElem within
    -- That attribute decides, by its text.
    simp only [Option.bind_some, listed, Option.map_some, Option.any_some]
    cases taken : rule.targetOf? attributes[position].value.text with
    -- No target takes the text, so that the point stays where it is.
    | none =>
      have none := targetOf?_eq_none_iff.1 taken
      refine Or.inl ⟨?_, rfl⟩
      simpa using none
    -- A target takes it, and the point moves there.
    | some group =>
      obtain ⟨⟨target, found, same⟩, -⟩ := targetOf?_eq_some_iff.1 taken
      refine Or.inr ⟨_, group, rfl, taken, ?_, rfl⟩
      exact List.any_eq_true.2 ⟨target, List.mem_of_getElem? found, by simp [same]⟩

/-- The points that no group takes are those that do not move, as they were. -/
theorem keptFrom_select (points : List DataPoint) :
    Point.keptFrom rule.select rule.targets.length points =
      points.filter fun point => !rule.moves point.attributes := by
  -- The induction keeps the first point or lets it go.
  induction points with
  | nil => rfl
  | cons point rest ih =>
    rw [Point.keptFrom] at ih ⊢
    rcases rule.select_cases point.attributes with
      ⟨stays, selected⟩ | ⟨text, group, -, taken, goes, selected⟩
    · -- The point stays, and nothing is selected from it.
      have same : point.selected rule.select = point := by
        rw [Point.selected, selected]
      simp [selected, stays, same, ih]
    · -- The point goes to a group, and the group is one of those that are made.
      have within : group < rule.targets.length := by
        obtain ⟨⟨target, found, -⟩, -⟩ := targetOf?_eq_some_iff.1 taken
        exact (List.getElem?_eq_some_iff.1 found).1
      simp [selected, goes, within, ih]

/-- A new metric takes the text that it is listed with if no later one is listed with it, and no
other text. -/
theorem targetOf?_eq_length_iff {earlier later : List (String × String)}
    {target : String × String} (whole : rule.targets = earlier ++ target :: later) (text : String) :
    rule.targetOf? text = some earlier.length ↔
      text = target.2 ∧ later.any (·.2 == target.2) = false := by
  -- The targets behind the one at hand are the later ones.
  have here : rule.targets[earlier.length]? = some target := by simp [whole]
  have behind (index : Nat) : rule.targets[earlier.length + 1 + index]? = later[index]? := by
    have past : earlier.length + 1 + index - earlier.length = index + 1 := by omega
    rw [whole, List.getElem?_append_right (by omega), past, List.getElem?_cons_succ]
  rw [targetOf?_eq_some_iff, here]
  constructor
  · -- The text is taken here, so that no target behind has it.
    rintro ⟨⟨found, same, rfl⟩, noneLater⟩
    obtain rfl := Option.some.inj same
    refine ⟨rfl, List.any_eq_false.2 fun other member => ?_⟩
    obtain ⟨index, listed⟩ := List.mem_iff_getElem?.1 member
    simpa using noneLater _ other (by omega) ((behind index).trans listed)
  · rintro ⟨rfl, noneLater⟩
    refine ⟨⟨target, rfl, rfl⟩, fun position other after listed => ?_⟩
    -- What stands after the target is one of the later ones.
    obtain ⟨index, rfl⟩ := Nat.exists_eq_add_of_lt after
    have place : earlier.length + index + 1 = earlier.length + 1 + index := by omega
    rw [place, behind] at listed
    simpa using List.any_eq_false.1 noneLater other (List.mem_of_getElem? listed)

/-- A group gets no point if a later new metric is listed with its text. Otherwise it gets the
points that its text decides, without the attribute that has it. -/
theorem sentTo_select {earlier later : List (String × String)} {target : String × String}
    (whole : rule.targets = earlier ++ target :: later) (points : List DataPoint) :
    Point.sentTo rule.select earlier.length points =
      if later.any (·.2 == target.2) then []
      else (points.filter fun point => rule.decider? point.attributes == some target.2).map
        rule.released := by
  -- The induction sends the first point to the group or to another one, or leaves it where it is.
  induction points with
  | nil => simp [Point.sentTo]
  | cons point rest ih =>
    rw [Point.sentTo] at ih ⊢
    rcases rule.select_cases point.attributes with
      ⟨stays, selected⟩ | ⟨text, group, decides, taken, goes, selected⟩
    · -- The text of the target would let the point move.
      have other : rule.decider? point.attributes ≠ some target.2 := by
        intro decides
        have member : target ∈ rule.targets := by simp [whole]
        rw [moves, decides, Option.any_some, List.any_eq_false] at stays
        exact stays target member (by simp)
      simp [selected, other, ih]
    · -- The point moves: to this group, or to that of another target.
      by_cases same : text = target.2 ∧ later.any (·.2 == target.2) = false
      · have place : group = earlier.length :=
          Option.some.inj (taken.symm.trans ((targetOf?_eq_length_iff whole text).2 same))
        have point_eq : point.selected rule.select = rule.released point := by
          rw [Point.selected, selected]
          rfl
        obtain ⟨rfl, noneLater⟩ := same
        simp only [noneLater] at ih ⊢
        simp [selected, decides, place, point_eq, ih]
      · -- Another group takes the point, because a later target has the text or the texts differ.
        have elsewhere : group ≠ earlier.length := by
          rintro rfl
          exact same ((targetOf?_eq_length_iff whole text).1 taken)
        cases noneLater : later.any (·.2 == target.2) with
        | true =>
          simp only [noneLater] at ih ⊢
          simp [selected, elsewhere, ih]
        | false =>
          have other : text ≠ target.2 := fun equal => same ⟨equal, noneLater⟩
          simp only [noneLater] at ih ⊢
          simp [selected, elsewhere, decides, other, ih]

/-! ### Metrics that are split -/

/-- The new metrics that can get points, in order: of several listed with one text only the last. -/
def takers : List (String × String) → List (String × String)
  | [] => []
  | target :: later =>
    if later.any (·.2 == target.2) then takers later else target :: takers later

/-- What is left of a metric is as it was, with the points that do not move. -/
structure Retains (rule : SplitRule) (metric rest : Metric) : Prop where
  /-- Nothing but points is lost. -/
  emptied : rest.emptied = metric.emptied
  /-- The points that do not move are left in order, as they were. -/
  points : rest.dataPoints = metric.dataPoints.filter fun point => !rule.moves point.attributes

/-- A new metric is like the one that is split under another name, with the points that move to
it. -/
structure Receives (rule : SplitRule) (metric : Metric) (target : String × String) (part : Metric) :
    Prop where
  /-- The new metric has its name from the rule and the rest from the metric. -/
  emptied : part.emptied = ({ metric with name := target.1 } : Metric).emptied
  /-- The points that move are in order, each without the attribute that decided. -/
  points : part.dataPoints =
    (metric.dataPoints.filter fun point => rule.decider? point.attributes == some target.2).map
      rule.released

/-- What becomes of one metric. -/
inductive FansOut (rule : SplitRule) (metric : Metric) : List Metric → Prop where
  /-- A metric of another name, or without data, is left alone. -/
  | untouched (other : metric.name ≠ rule.metric ∨ metric.data = none) :
    FansOut rule metric [metric]
  /-- Any other metric is followed by the new metrics; those without points are left out, and so is
  the metric itself if it has none left. -/
  | divided {rest : Metric} {parts : List Metric} (named : metric.name = rule.metric)
    (held : metric.data ≠ none) (retains : rule.Retains metric rest)
    (receive : List.Forall₂ (rule.Receives metric) (takers rule.targets) parts) :
    FansOut rule metric ((rest :: parts).filter fun part => 0 < part.pointCount)

/-- What becomes of a metric is determined. -/
theorem rightUnique_fansOut (rule : SplitRule) : Relator.RightUnique rule.FansOut := by
  -- Metrics with the same points and the same rest are the same.
  have receives (metric : Metric) : Relator.RightUnique (rule.Receives metric) := by
    intro target part other first second
    exact Metric.eq_of_emptied (first.emptied.trans second.emptied.symm)
      (first.points.trans second.points.symm)
  -- The two ways do not go together, as a metric that is divided has the name and holds data.
  intro metric parted others first second
  cases first with
  -- The same names and data make the same way, and its parts are determined.
  | untouched alone =>
    cases second with
    | untouched _ => rfl
    | divided named held _ _ => exact absurd alone (by simp [named, held])
  | divided named held retains receive =>
    cases second with
    | untouched alone => exact absurd alone (by simp [named, held])
    | divided _ _ retains' receive' =>
      rw [Metric.eq_of_emptied (retains.emptied.trans retains'.emptied.symm)
        (retains.points.trans retains'.points.symm), (receives metric).forall₂ receive receive']

section Divided

variable {metric : Metric} {data : MetricData}

/-- What is left of a metric has the points that do not move. -/
theorem retains_remainder (held : metric.data = some data) :
    rule.Retains metric (rule.remainder metric data) where
  emptied := by
    simp [Metric.emptied, remainder, held, data.emptied_partition_fst]
  points := by
    -- The points that no group takes are those that do not move.
    rw [Metric.dataPoints_of_data held, ← keptFrom_select]
    exact data.dataPoints_partition_fst _ _

/-- Of the targets with one text the last one has the new metric with the points that move, and the
new metrics of the other ones have no points. -/
theorem exists_receives (held : metric.data = some data) {earlier later : List (String × String)}
    (whole : rule.targets = earlier ++ later) :
    ∃ parts, List.Forall₂ (rule.Receives metric) (takers later) parts ∧
      (((later.zipIdx earlier.length).map (rule.part metric data)).filter fun part =>
        0 < part.pointCount) = parts.filter fun part => 0 < part.pointCount := by
  -- The induction moves the first target to the earlier ones.
  induction later generalizing earlier with
  | nil => exact ⟨[], .nil, rfl⟩
  | cons target later ih =>
    -- The target is seen as the last of the earlier ones.
    have moved : rule.targets = (earlier ++ [target]) ++ later := by simp [whole]
    obtain ⟨parts, receive, same⟩ := ih moved
    rw [List.length_append, List.length_singleton] at same
    have sent : (rule.part metric data (target, earlier.length)).dataPoints =
        Point.sentTo rule.select earlier.length metric.dataPoints := by
      rw [Metric.dataPoints_of_data held]
      exact data.dataPoints_sentTo _ _
    rw [sentTo_select whole] at sent
    rw [List.zipIdx_cons, List.map_cons, takers]
    split
    · -- A later target takes the text, so that the new metric has no points and is left out.
      rename_i repeated
      have void : ¬ 0 < (rule.part metric data (target, earlier.length)).pointCount := by
        rw [Metric.pointCount_eq, sent, if_pos repeated]
        simp
      exact ⟨parts, receive, by rw [List.filter_cons_of_neg (by simpa using void), same]⟩
    · -- No later target has the text, so that all points with it are sent here.
      rename_i last
      rw [if_neg last] at sent
      have received : rule.Receives metric target
          (rule.part metric data (target, earlier.length)) := by
        refine ⟨?_, sent⟩
        simp [Metric.emptied, part, held, data.emptied_sentTo]
      refine ⟨_ :: parts, .cons received receive, ?_⟩
      rw [List.filter_cons, List.filter_cons, same]

/-- A split makes of each metric what is to become of it. -/
theorem fansOut_splitMetric (rule : SplitRule) (metric : Metric) :
    rule.FansOut metric (rule.splitMetric metric) := by
  -- A metric is taken apart or left alone.
  rcases rule.splitMetric_cases metric with ⟨other, alone⟩ | ⟨data, named, held, parted⟩
  · rw [alone]
    exact .untouched other
  · -- The new metrics are those that receive points, but for some without any.
    obtain ⟨parts, receive, same⟩ := exists_receives held (List.nil_append _).symm
    have whole : rule.splitMetric metric =
        (rule.remainder metric data :: parts).filter fun part => 0 < part.pointCount := by
      rw [parted, List.filter_cons, List.filter_cons, ← same]
      rfl
    rw [whole]
    exact .divided named (by simp [held]) (retains_remainder held) receive

end Divided

/-- A point that moves has an attribute that selects a new metric. -/
theorem selects_of_moves {attributes : Attributes} (goes : rule.moves attributes = true) :
    rule.selects attributes = true := by
  -- A point without a moving attribute does not move.
  rcases rule.select_cases attributes with
    ⟨stays, -⟩ | ⟨text, group, decides, taken, -, -⟩
  · simp [stays] at goes
  · -- The attribute that decides is one that selects.
    obtain ⟨entry, found, rfl⟩ := Option.map_eq_some_iff.1 decides
    have key := List.find?_some found
    rw [selects, List.any_eq_true]
    exact ⟨entry, List.mem_of_find?_eq_some found, by simp [eq_of_beq key, taken]⟩

/-- If a point of a metric of the name moves, a split makes a single record, of the list as it was,
and puts in place of each metric what becomes of that metric, which the rule determines. -/
theorem convert_eq_flatten {metrics : List Metric}
    (moving : ∃ metric ∈ metrics, metric.name = rule.metric ∧
      ∃ point ∈ metric.dataPoints, rule.moves point.attributes = true) :
    ∃ parted, List.Forall₂ rule.FansOut metrics parted ∧
      (∀ other, List.Forall₂ rule.FansOut metrics other → other = parted) ∧
      rule.convert metrics =
        .changed parted.flatten (.replacedMetrics (.here .metricList) metrics) := by
  -- Each metric becomes what is to become of it.
  have each : List.Forall₂ rule.FansOut metrics (metrics.map rule.splitMetric) :=
    List.forall₂_map_right_iff.2 <| List.forall₂_same.2 fun metric _ =>
      rule.fansOut_splitMetric metric
  refine ⟨metrics.map rule.splitMetric, each, fun other fans => ?_, ?_⟩
  · exact rule.rightUnique_fansOut.forall₂ fans each
  · -- A point that moves is one that the split looks for beforehand.
    obtain ⟨metric, member, named, point, within, goes⟩ := moving
    have selected : metric.anyPoint rule.selects = true :=
      Metric.anyPoint_eq_true_iff.2 ⟨point, within, selects_of_moves goes⟩
    rw [convert_of_selected ⟨metric, member, named, selected⟩, List.flatMap_def]

/-- A split by direction. Two new metrics are listed with one value, and one has the name of the
metric that is split. -/
def byDirection : SplitRule :=
  ⟨"net.io", "direction",
    [("net.in", "in"), ("net.io", "out"), ("net.errors", "3"), ("net.received", "in")]⟩

/-- A gauge with points at the given times. -/
def netGauge (name : String) (points : List (UInt64 × Attributes)) : Metric :=
  ⟨name, "", "By", [],
    some (.numbers .gauge (points.map fun entry => ⟨entry.2, 0, entry.1, 0, none⟩))⟩

/-- Two metrics to split, one of them without points, and another metric. Some points have the
deciding key twice, or not at all. -/
def netGauges : List Metric :=
  [netGauge "load" [(1, [⟨"direction", .string "in"⟩])],
    netGauge "net.io" [(2, [⟨"host", .string "a"⟩, ⟨"direction", .string "in"⟩]),
      (3, [⟨"direction", .string "out"⟩, ⟨"direction", .string "in"⟩]), (4, []),
      (5, [⟨"direction", .string "both"⟩, ⟨"direction", .string "in"⟩]),
      (6, [⟨"direction", .string "in"⟩]), (7, [⟨"direction", .int 3⟩])],
    netGauge "net.io" []]

/-- Points move by the first attribute with the key, whatever type its value has, to the last metric
listed with that value. -/
theorem convert_eq_flatten_byDirection :
    (∃ metric ∈ netGauges, metric.name = byDirection.metric ∧
      ∃ point ∈ metric.dataPoints, byDirection.moves point.attributes = true) ∧
    ∃ parted, List.Forall₂ byDirection.FansOut netGauges parted ∧
      parted.flatten.map (fun part => (part.name, part.dataPoints.map fun point =>
          (point.time, point.attributes.map fun entry => (entry.key, entry.value.text)))) =
        [("load", [(1, [("direction", "in")])]),
          ("net.io", [(4, []), (5, [("direction", "both"), ("direction", "in")])]),
          ("net.io", [(3, [("direction", "in")])]), ("net.errors", [(7, [])]),
          ("net.received", [(2, [("host", "a")]), (6, [])])] := by
  have moving : ∃ metric ∈ netGauges, metric.name = byDirection.metric ∧
      ∃ point ∈ metric.dataPoints, byDirection.moves point.attributes = true := by
    decide +kernel
  obtain ⟨parted, fans, -, converted⟩ := convert_eq_flatten moving
  refine ⟨moving, parted, fans, ?_⟩
  have flat : parted.flatten = (byDirection.convert netGauges).value := by
    rw [converted]
    rfl
  rw [flat]
  decide +kernel

end SchemaUplift.SplitRule
