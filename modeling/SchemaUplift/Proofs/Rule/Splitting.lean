import SchemaUplift.Proofs.Rule.DataPoints
import SchemaUplift.Proofs.Rule.Routing
import SchemaUplift.Rule.Split

/-! What a split makes of a single metric: what is left of it, and new metrics that take its
points. A list that holds a metric to split is split metric by metric. -/

namespace SchemaUplift

/-- The last of the positions of the items that pass a test. -/
theorem getLast?_positionsWhere_eq_some_iff {α : Type} {test : α → Bool} {items : List α}
    {position : Nat} :
    (positionsWhere test items).getLast? = some position ↔
      (∃ item, items[position]? = some item ∧ test item = true) ∧
        ∀ later item, position < later → items[later]? = some item → test item = false := by
  -- The positions ascend, so that no item passes behind the last of them.
  have ascending : (positionsWhere test items).Pairwise (· < ·) := by
    have within : (positionsWhere test items).Sublist (items.zipIdx.map (·.2)) :=
      List.filter_sublist.map _
    rw [List.zipIdx_map_snd] at within
    exact (List.pairwise_lt_range' 1).sublist within
  -- Something that passed behind the last position would have a position of its own.
  have passes_none {last later : Nat} {item : α}
      (found : (positionsWhere test items).getLast? = some last) (after : last < later)
      (listed : items[later]? = some item) : test item = false := by
    cases passes : test item with
    | false => rfl
    | true =>
      have member : later ∈ positionsWhere test items :=
        mem_positionsWhere.2 ⟨item, listed, passes⟩
      -- That position is listed before the last one or is the last one, but neither comes after it.
      obtain ⟨front, whole⟩ := List.getLast?_eq_some_iff.1 found
      rw [whole] at member ascending
      rcases List.mem_append.1 member with early | same
      · have before := (List.pairwise_append.1 ascending).2.2 later early last (by simp)
        omega
      · have same := List.mem_singleton.1 same
        omega
  constructor
  · -- The last position is one of them, and nothing passes behind it.
    intro found
    exact ⟨mem_positionsWhere.1 (List.mem_of_getLast? found), fun _ _ => passes_none found⟩
  · -- The item gives the list of positions a member, so that the list has a last one.
    rintro ⟨⟨item, listed, passes⟩, noneLater⟩
    have member : position ∈ positionsWhere test items :=
      mem_positionsWhere.2 ⟨item, listed, passes⟩
    cases found : (positionsWhere test items).getLast? with
    | none =>
      rw [List.getLast?_eq_none_iff] at found
      exact absurd member (found ▸ List.not_mem_nil)
    | some last =>
      obtain ⟨other, otherListed, otherPasses⟩ :=
        mem_positionsWhere.1 (List.mem_of_getLast? found)
      -- Of two different positions one would come after the other.
      rcases Nat.lt_trichotomy position last with before | same | after
      · simp [noneLater last other before otherListed] at otherPasses
      · rw [same]
      · simp [passes_none found after listed] at passes

namespace SplitRule

variable {rule : SplitRule}

/-- A new metric takes a text if it is listed with it and no later one is. -/
theorem targetOf?_eq_some_iff {text : String} {group : Nat} :
    rule.targetOf? text = some group ↔
      (∃ target, rule.targets[group]? = some target ∧ target.2 = text) ∧
        ∀ later target, group < later → rule.targets[later]? = some target → target.2 ≠ text := by
  -- The positions are those of the targets with the text.
  rw [targetOf?, getLast?_positionsWhere_eq_some_iff]
  simp

/-- No new metric takes a text that none is listed with. -/
theorem targetOf?_eq_none_iff {text : String} :
    rule.targetOf? text = none ↔ ∀ target ∈ rule.targets, target.2 ≠ text := by
  -- There is no last position exactly if there is none at all.
  rw [targetOf?, List.getLast?_eq_none_iff, List.eq_nil_iff_forall_not_mem]
  simp only [mem_positionsWhere, beq_iff_eq, not_exists, not_and]
  constructor
  · -- A target stands at some position, which would be listed.
    intro none target member
    obtain ⟨position, listed⟩ := List.mem_iff_getElem?.1 member
    -- An item at a position is one of the targets.
    exact none position target listed
  · intro none position target listed
    exact none target (List.mem_of_getElem? listed)

/-! ### Metrics taken apart -/

/-- What is left of a metric. -/
def remainder (rule : SplitRule) (metric : Metric) (data : MetricData) : Metric :=
  { metric with data := some (data.partition rule.targets.length rule.select).1 }

/-- The new metric for a numbered target, with the points of its group. -/
def part (rule : SplitRule) (metric : Metric) (data : MetricData)
    (target : (String × String) × Nat) : Metric :=
  { metric with name := target.1.1, data := some (data.sentTo rule.select target.2) }

/-- The new metric is of the kind of the one that is taken apart. -/
theorem kind_part (rule : SplitRule) {metric : Metric} {data : MetricData}
    (held : metric.data = some data) (target : (String × String) × Nat) :
    -- The kind is that of the data, and every group has the kind of its whole.
    (rule.part metric data target).kind = metric.kind := by
  have whole : metric.kind = data.kind := by
    rw [Metric.kind, held]
    rfl
  exact (data.kind_sentTo rule.select target.2).trans whole.symm

/-- A metric of another name is left alone. -/
theorem splitMetric_of_other {metric : Metric} (other : metric.name ≠ rule.metric) :
    rule.splitMetric metric = [metric] := by
  rw [splitMetric, if_neg other]

/-- A metric of the name that holds data becomes what is left of it and the new metrics, as far as
they have points. -/
theorem splitMetric_of_data {metric : Metric} {data : MetricData}
    (named : metric.name = rule.metric) (held : metric.data = some data) :
    rule.splitMetric metric =
      (rule.remainder metric data :: rule.targets.zipIdx.map (rule.part metric data)).filter
        fun part => 0 < part.pointCount := by
  -- Groups are made in the order of their numbers, which are the positions of the targets.
  have parts : ((data.partition rule.targets.length rule.select).2.zip rule.targets).map
        (fun entry => { metric with name := entry.2.1, data := some entry.1 }) =
      -- Both lists are compared position by position.
      rule.targets.zipIdx.map (rule.part metric data) := by
    refine List.ext_getElem (by simp [MetricData.partition_snd]) fun position left right => ?_
    simp [MetricData.partition_snd, part]
  rw [← parts, splitMetric, if_pos named, held]
  rfl

/-- A metric of another name, or without data, is left alone, and any other one is taken apart. -/
theorem splitMetric_cases (rule : SplitRule) (metric : Metric) :
    ((metric.name ≠ rule.metric ∨ metric.data = none) ∧ rule.splitMetric metric = [metric]) ∨
    ∃ data, metric.name = rule.metric ∧ metric.data = some data ∧
      rule.splitMetric metric =
        (rule.remainder metric data :: rule.targets.zipIdx.map (rule.part metric data)).filter
          fun part => 0 < part.pointCount := by
  -- The name decides first, and then whether there is data.
  by_cases named : metric.name = rule.metric
  · cases held : metric.data with
    | none =>
      refine Or.inl ⟨Or.inr rfl, ?_⟩
      rw [splitMetric, if_pos named, held]
    | some data => exact Or.inr ⟨data, named, rfl, splitMetric_of_data named held⟩
  · exact Or.inl ⟨Or.inl named, splitMetric_of_other named⟩

/-- If some metric of the name has a point with an attribute that selects a new metric, all metrics
are taken apart, with a single record. -/
theorem convert_of_selected {metrics : List Metric}
    (selected : ∃ metric ∈ metrics,
      metric.name = rule.metric ∧ metric.anyPoint rule.selects = true) :
    rule.convert metrics = .changed (metrics.flatMap rule.splitMetric)
      (.replacedMetrics (.here .metricList) metrics) := by
  -- The metric with the selecting point is what the guard of the rule looks for.
  obtain ⟨metric, member, named, selects⟩ := selected
  rw [convert, if_pos (List.any_eq_true.2 ⟨metric, member, by simp [named, selects]⟩)]

end SplitRule

end SchemaUplift
