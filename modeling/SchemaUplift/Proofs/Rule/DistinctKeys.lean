import SchemaUplift.Proofs.Interpretation.Preservation
import SchemaUplift.Proofs.Interpretation.Stages
import SchemaUplift.Proofs.Rename
import SchemaUplift.Proofs.Rule.Conservation

/-! Rules that succeed leave distinct attribute keys where keys were distinct before: renames check
it, splits only take attributes away, and merges refuse points that have the key to be added. -/

namespace SchemaUplift

/-! ### Spans -/

/-- A span and its events each have distinct attribute keys. -/
structure Span.HasDistinctKeys (span : Span) : Prop where
  /-- The keys of the span are distinct. -/
  attributes : span.attributes.HasDistinctKeys
  /-- So are the keys of each event. -/
  events : ∀ event ∈ span.events, event.attributes.HasDistinctKeys

/-- A rule for spans keeps keys distinct. -/
theorem SpanRule.keeps_hasDistinctKeys (rule : SpanRule) :
    Keeps Span.HasDistinctKeys rule.effect? := by
  intro span result distinct success
  rw [effect?] at success
  split at success
  · -- The span is in scope, and a rename that succeeds leaves its keys distinct.
    obtain ⟨attributes, renamed, rfl⟩ := Option.map_eq_some_iff.1 success
    exact ⟨RenameTable.hasDistinctKeys_of_rename? distinct.attributes renamed, distinct.events⟩
  · -- The span is out of scope.
    cases success
    exact distinct

/-- A rule for events keeps keys distinct. -/
theorem EventRule.keeps_hasDistinctKeys (rule : EventRule) :
    Keeps Span.HasDistinctKeys rule.effect? := by
  intro span result distinct success
  cases rule with
  | renameEvents names =>
    -- Renamed events stay in their places, with their attributes.
    cases success
    refine ⟨distinct.attributes, ?_⟩
    intro event member
    -- An event under a new name has the attributes that it had before.
    obtain ⟨origin, within, rfl⟩ := List.mem_map.1 member
    exact distinct.events origin within
  | renameAttributes spans events table =>
    rw [effect?] at success
    split at success
    · obtain ⟨results, changed, rfl⟩ := Option.map_eq_some_iff.1 success
      refine ⟨distinct.attributes, ?_⟩
      intro event member
      -- Each event comes from one whose keys were renamed or, out of scope, left alone.
      obtain ⟨origin, within, made⟩ := exists_of_mem_mapM changed member
      split at made
      · obtain ⟨attributes, renamed, rfl⟩ := Option.map_eq_some_iff.1 made
        exact RenameTable.hasDistinctKeys_of_rename? (distinct.events origin within) renamed
      · cases made
        exact distinct.events event within
    · -- No event of another span is in scope.
      cases success
      exact distinct

/-- A pass over spans keeps keys distinct. -/
theorem SpanPass.keeps_hasDistinctKeys (pass : SpanPass) :
    Keeps (∀ span ∈ ·, Span.HasDistinctKeys span)
      fun spans => (pass.convert spans).success? := by
  simp only [SpanPass.success?_convert]
  refine Keeps.inOrder ?_
  intro step member
  -- A step is a rule for spans or one for events, taken through all spans.
  rcases List.mem_append.1 member with span | event
  · obtain ⟨rule, -, rfl⟩ := List.mem_map.1 span
    exact rule.keeps_hasDistinctKeys.mapM
  · obtain ⟨rule, -, rfl⟩ := List.mem_map.1 event
    exact rule.keeps_hasDistinctKeys.mapM

/-! ### Single metrics -/

/-- Each point of a metric has distinct attribute keys. -/
def Metric.HasDistinctKeys (metric : Metric) : Prop :=
  ∀ attributes ∈ metric.attributeLists, attributes.HasDistinctKeys

/-- Changes to the points of a metric are changes to their attributes, in order. -/
theorem Metric.map_attributeLists_mapAttributes? (change : Attributes → Option Attributes)
    (metric : Metric) :
    (metric.mapAttributes? change).map attributeLists = metric.attributeLists.mapM change := by
  -- Points of both kinds are changed alike.
  have points {ρ : Type} (points : List (Point ρ)) :
      (Point.mapAttributes? change points).map (·.map (·.attributes)) =
        (points.map (·.attributes)).mapM change := by
    -- The first point is changed before the others, and its failure ends both sides.
    induction points with
    | nil => rfl
    | cons point rest ih =>
      rw [List.map_cons, List.mapM_cons, ← ih, Point.mapAttributes?, List.mapM_cons]
      cases change point.attributes with
      | none => rfl
      | some attributes =>
        show Option.map _ (Option.bind (Point.mapAttributes? change rest) _) =
          Option.bind (Option.map _ (Point.mapAttributes? change rest)) _
        cases Point.mapAttributes? change rest <;> rfl
  obtain ⟨name, description, unit, metadata, data⟩ := metric
  cases data with
  | none => rfl
  | some data =>
    cases data <;> simpa [mapAttributes?, Function.comp_def, attributeLists,
      MetricData.attributeLists] using points _

/-- A metric that is turned into a delta sum keeps the attributes of its points. -/
theorem Metric.attributeLists_toDelta (index : Nat) (metric : Metric) :
    (metric.toDelta index).value.attributeLists = metric.attributeLists := by
  rw [attributeLists_eq, attributeLists_eq]
  exact map_dataPoints_toDelta (fun _ _ _ => rfl) index metric

/-- A rule for single metrics keeps keys distinct. -/
theorem MetricRule.keeps_hasDistinctKeys (rule : MetricRule) :
    Keeps Metric.HasDistinctKeys rule.effect? := by
  intro metric result distinct success
  cases rule with
  | rename names =>
    -- The name is no attribute.
    cases success
    exact distinct
  | renameAttributes metrics table =>
    rw [effect?] at success
    split at success
    · -- The attributes of every point come from those of a point by one rename.
      have renamed := metric.map_attributeLists_mapAttributes? table.rename?
      rw [success, Option.map_some] at renamed
      intro attributes member
      obtain ⟨origin, within, made⟩ := exists_of_mem_mapM renamed.symm member
      exact RenameTable.hasDistinctKeys_of_rename? (distinct origin within) made
    · -- The metric is out of scope.
      cases success
      exact distinct
  | toDelta metrics =>
    cases success
    split
    · -- Only readings and starts of points are changed.
      rw [Metric.HasDistinctKeys, metric.attributeLists_toDelta]
      exact distinct
    · exact distinct

/-- A pass over metrics keeps keys distinct. -/
theorem MetricPass.keeps_hasDistinctKeys (pass : MetricPass) :
    Keeps (∀ metric ∈ ·, Metric.HasDistinctKeys metric)
      fun metrics => (pass.convert metrics).success? := by
  simp only [MetricPass.success?_convert]
  refine Keeps.inOrder ?_
  intro step member
  obtain ⟨rule, -, rfl⟩ := List.mem_map.1 member
  exact rule.keeps_hasDistinctKeys.mapM

/-! ### Splits -/

/-- The points of data taken apart have the attributes that the selector leaves to points of the
whole. -/
theorem MetricData.exists_of_mem_partition {groups : Nat} {select : Selector}
    {data part : MetricData}
    (member : part ∈ (data.partition groups select).1 :: (data.partition groups select).2)
    {attributes : Attributes} (within : attributes ∈ part.attributeLists) :
    ∃ origin ∈ data.attributeLists, (select origin).1 = attributes := by
  rw [attributeLists_eq] at within ⊢
  obtain ⟨point, held, rfl⟩ := List.mem_map.1 within
  -- A point of any part is a point of the whole as it was selected.
  have selected : ∃ origin ∈ data.dataPoints, Point.selected select origin = point := by
    -- The point stays with what is left, or is sent to one of the groups.
    rcases List.mem_cons.1 member with rfl | moved
    · rw [dataPoints_partition_fst] at held
      obtain ⟨origin, kept, same⟩ := List.mem_map.1 held
      exact ⟨origin, List.mem_of_mem_filter kept, same⟩
    · rw [partition_snd] at moved
      obtain ⟨group, -, rfl⟩ := List.mem_map.1 moved
      rw [dataPoints_sentTo] at held
      obtain ⟨origin, sent, same⟩ := List.mem_map.1 held
      exact ⟨origin, List.mem_of_mem_filter sent, same⟩
  obtain ⟨origin, whole, rfl⟩ := selected
  exact ⟨origin.attributes, List.mem_map_of_mem whole, rfl⟩

namespace SplitRule

/-- A point loses at most one attribute when it moves. -/
theorem select_sublist (rule : SplitRule) (attributes : Attributes) :
    (rule.select attributes).1.Sublist attributes := by
  unfold select
  split
  · exact .refl _
  · split
    · exact .refl _
    · exact List.eraseIdx_sublist _ _

/-- The metrics that come from a metric with distinct keys have distinct keys. -/
theorem hasDistinctKeys_splitMetric {rule : SplitRule} {metric part : Metric}
    (distinct : metric.HasDistinctKeys) (member : part ∈ rule.splitMetric metric) :
    part.HasDistinctKeys := by
  rcases rule.splitMetric_cases metric with ⟨-, alone⟩ | ⟨data, -, held, parted⟩
  · -- The metric is left alone.
    rw [alone] at member
    obtain rfl := List.mem_singleton.1 member
    exact distinct
  · -- The metric is taken apart, and its points are those of its data.
    have whole : metric.attributeLists = data.attributeLists := by
      rw [Metric.attributeLists_eq, Metric.dataPoints_of_data held, data.attributeLists_eq]
    obtain ⟨piece, cut, same⟩ : ∃ piece ∈ (data.partition rule.targets.length rule.select).1 ::
        (data.partition rule.targets.length rule.select).2,
          part.attributeLists = piece.attributeLists := by
      -- The metric is the one that keeps its name, or one that holds what was moved.
      rw [parted] at member
      rcases List.mem_cons.1 (List.mem_of_mem_filter member) with rfl | moved
      · exact ⟨_, List.mem_cons_self, rfl⟩
      · obtain ⟨⟨target, group⟩, numbered, rfl⟩ := List.mem_map.1 moved
        have within : group < rule.targets.length := List.snd_lt_of_mem_zipIdx numbered
        rw [MetricData.partition_snd]
        exact ⟨data.sentTo rule.select group,
          List.mem_cons_of_mem _ (List.mem_map_of_mem (List.mem_range.2 within)), rfl⟩
    intro attributes within
    rw [same] at within
    -- Each list of attributes is part of one that the metric had.
    obtain ⟨origin, held, rfl⟩ := MetricData.exists_of_mem_partition cut within
    rw [← whole] at held
    exact (distinct origin held).sublist ((rule.select_sublist origin).map _)

/-- A split keeps keys distinct. -/
theorem keeps_hasDistinctKeys (rule : SplitRule) :
    Keeps (∀ metric ∈ ·, Metric.HasDistinctKeys metric)
      fun metrics => (rule.convert metrics).success? := by
  intro metrics result distinct success
  simp only [convert] at success
  -- Some point moves, and metrics are taken apart.
  split at success
  · cases success
    intro part member
    -- Every metric afterwards comes from one before.
    obtain ⟨metric, within, made⟩ := List.mem_flatMap.1 member
    exact hasDistinctKeys_splitMetric (distinct metric within) made
  · -- Nothing moves.
    cases success
    exact distinct

end SplitRule

/-! ### Merges -/

namespace MergeRule

/-- A source that is marked has distinct keys if it had them and none of them was the one that the
mark has. -/
theorem hasDistinctKeys_tag {rule : MergeRule} {metric : Metric}
    (distinct : metric.HasDistinctKeys)
    (fresh : metric.anyPoint (·.hasKey rule.byAttribute) = false) :
    (rule.tag metric).HasDistinctKeys := by
  cases listed : rule.sources.get? metric.name with
  -- A metric that is no source receives no mark.
  | none => simpa only [tag, listed] using distinct
  | some value =>
    intro attributes member
    rw [Metric.attributeLists_eq, dataPoints_tag listed, List.map_map] at member
    obtain ⟨point, within, rfl⟩ := List.mem_map.1 member
    have origin : point.attributes ∈ metric.attributeLists := by
      rw [Metric.attributeLists_eq]
      exact List.mem_map_of_mem within
    -- No point of the source has the key of the mark.
    have absent : rule.byAttribute ∉ point.attributes.map (·.key) := by
      have none := List.any_eq_false.1 fresh _ origin
      simpa [Attributes.hasKey] using none
    -- The key of the mark comes after keys that differ from it and from each other.
    show (List.map (·.key) (point.attributes ++ [⟨rule.byAttribute, .string value⟩])).Nodup
    rw [List.map_append, List.map_singleton]
    simpa using (distinct _ origin).concat absent

/-- A merge keeps keys distinct. -/
theorem keeps_hasDistinctKeys (rule : MergeRule) :
    Keeps (∀ metric ∈ ·, Metric.HasDistinctKeys metric)
      fun metrics => (rule.convert metrics).success? := by
  intro metrics result distinct success
  -- The merge finds sources, or leaves the list alone.
  by_cases found : ∃ metric ∈ metrics, rule.isSource metric
  · obtain ⟨before, merged, after, rfl, merges⟩ := exists_of_success found success
    -- The other metrics are as they were before.
    have untouched : ∀ metric ∈ before ++ after, metric.HasDistinctKeys := by
      intro metric member
      rw [merges.others] at member
      exact distinct metric (List.mem_of_mem_filter member)
    intro metric member
    rcases List.mem_append.1 member with early | member
    · exact untouched metric (List.mem_append_left _ early)
    · rcases List.mem_cons.1 member with rfl | late
      · -- Each point of the merged metric is a marked point of a source.
        intro attributes within
        rw [Metric.attributeLists_eq, merges.points, List.map_flatMap] at within
        obtain ⟨source, member, within⟩ := List.mem_flatMap.1 within
        rw [← Metric.attributeLists_eq] at within
        have origin := distinct source (List.mem_of_mem_filter member)
        exact hasDistinctKeys_tag origin (merges.fresh source member) attributes within
      · exact untouched metric (List.mem_append_right _ late)
  · have absent : ∀ metric ∈ metrics, rule.isSource metric = false := by simpa using found
    simp only [convert_of_no_source absent] at success
    cases success
    exact distinct

end MergeRule

/-! ### Stages -/

/-- A stage keeps keys distinct. -/
theorem MetricStage.keeps_hasDistinctKeys (stage : MetricStage) :
    Keeps (∀ metric ∈ ·, Metric.HasDistinctKeys metric)
      fun metrics => (stage.convert metrics).success? := by
  cases stage with
  | pass steps => exact steps.keeps_hasDistinctKeys
  | split rule => exact rule.keeps_hasDistinctKeys
  | merge rule => exact rule.keeps_hasDistinctKeys

/-- The stages of a version keep keys distinct. -/
theorem MetricPlan.keeps_hasDistinctKeys (plan : MetricPlan) :
    Keeps (∀ metric ∈ ·, Metric.HasDistinctKeys metric)
      fun metrics => (plan.convert metrics).success? :=
  Keeps.inSequence MetricStage.keeps_hasDistinctKeys plan.stages

end SchemaUplift
