import SchemaUplift.Proofs.Journal.Reversal
import SchemaUplift.Proofs.Rule.Merging
import SchemaUplift.Rule.MetricPlan
import SchemaUplift.Rule.Span

/-! Every rule leaves records that undo what it did to its list, also where it fails. -/

namespace SchemaUplift

/-- The item between two runs of a list is a part that is put back between them. -/
@[simp] theorem Part.item?_append {α : Type} (before after : List α) (item : α) :
    Part.item? (before ++ item :: after) before.length =
      some ⟨item, fun item => before ++ item :: after⟩ := by
  -- The position of the item is the length of what stands before it.
  have put : (before ++ item :: after).set before.length = fun item => before ++ item :: after := by
    funext other
    simp
  simp [Part.item?, put]

/-! ### Spans and their events -/

section Spans

variable (before after : List Span)

/-- The attributes of a span in a list are found at its index. -/
theorem Span.attributes?_append (span : Span) (attributes : Attributes) :
    RollbackTarget.attributes? (before ++ { span with attributes } :: after)
        (.here (.span before.length)) =
      some ⟨attributes, fun attributes => before ++ { span with attributes } :: after⟩ := by
  simp [RollbackTarget.attributes?, Address.here, Part.within, Span.attributesPart]

/-- The event between two runs of the events of a span is a part of the span. -/
@[simp] theorem Span.event?_append (span : Span) (first last : List SpanEvent)
    (event : SpanEvent) :
    ({ span with events := first ++ event :: last } : Span).event? first.length =
      some ⟨event, fun event => { span with events := first ++ event :: last }⟩ := by
  simp [Span.event?, Part.map]

/-- The attributes of an event of a span in a list are found at the two indices. -/
theorem SpanEvent.attributes?_append (span : Span) (first last : List SpanEvent)
    (event : SpanEvent) (attributes : Attributes) :
    RollbackTarget.attributes?
        (before ++ { span with events := first ++ { event with attributes } :: last } :: after)
        (.here (.spanEvent before.length first.length)) =
      some ⟨attributes, fun attributes =>
        before ++ { span with events := first ++ { event with attributes } :: last } :: after⟩ := by
  simp [RollbackTarget.attributes?, Address.here, Part.within, SpanEvent.attributesPart]

/-- The name of an event of a span in a list is found at the two indices. -/
theorem SpanEvent.name?_append (span : Span) (first last : List SpanEvent) (event : SpanEvent)
    (name : String) :
    RollbackTarget.name?
        (before ++ { span with events := first ++ { event with name } :: last } :: after)
        (.here (.spanEvent before.length first.length)) =
      some ⟨name, fun name =>
        before ++ { span with events := first ++ { event with name } :: last } :: after⟩ := by
  simp [RollbackTarget.name?, Address.here, Part.within, SpanEvent.namePart]

/-- A rule for spans reverts on each span of a list. -/
theorem SpanRule.reverts_convert (rule : SpanRule) (span : Span) :
    Reverts (fun span => before ++ span :: after) span (rule.convert before.length span) := by
  -- A rule that does not concern the span leaves it, and another one renames its attributes.
  unfold SpanRule.convert
  split
  · exact .map (rule.table.reverts_convert (Span.attributes?_append before after span) _) rfl
  · exact .unchanged _ span

/-- A rule for events reverts on each span of a list. -/
theorem EventRule.reverts_convert (rule : EventRule) (span : Span) :
    Reverts (fun span => before ++ span :: after) span (rule.convert before.length span) := by
  -- Both kinds of rule go through the events of the span one by one.
  cases rule with
  | renameEvents names =>
    have events : Reverts (fun events => before ++ { span with events } :: after) span.events
        (Attempt.forEach (fun event => EventRule.renameEvent names
          (.here (.spanEvent before.length event))) span.events) := by
      -- An event that gets another name has the old one written down at its two indices.
      refine .forEach (fun first event last => ?_) span.events
      unfold EventRule.renameEvent
      split
      · refine .changed ?_
        simp only [JournalEntry.undo, SpanEvent.name?_append, putBack]
      · exact .unchanged _ event
    exact .map events rfl
  | renameAttributes spans events table =>
    have renamed : Reverts (fun events => before ++ { span with events } :: after) span.events
        (Attempt.forEach (fun event => EventRule.convertAttributes events table
          (.here (.spanEvent before.length event))) span.events) := by
      -- An event in scope is renamed by its attributes, and another one is left alone.
      refine .forEach (fun first event last => ?_) span.events
      unfold EventRule.convertAttributes
      split
      · exact .map (table.reverts_convert
          (SpanEvent.attributes?_append before after span first last event) _) rfl
      · exact .unchanged _ event
    -- Spans out of scope are left with all their events.
    simp only [EventRule.convert]
    split
    · exact .map renamed rfl
    · exact .unchanged _ span

end Spans

/-- A pass over spans reverts. -/
theorem SpanPass.reverts_convert (pass : SpanPass) (spans : List Span) :
    Reverts id spans (pass.convert spans) := by
  -- The walk takes one span at a time, with those before and after it in place.
  refine .forEach (fun before span after => ?_) spans
  -- Each span meets some of the rules for spans and then all rules for events.
  refine .andThen (.inSequence ?_ span) (Reverts.inSequence ?_)
  · -- The rules for spans are found by the name, and any of them reverts.
    simp only [List.mem_map]
    rintro step ⟨rule, -, rfl⟩ value
    exact rule.reverts_convert before after value
  · -- The rules for events are all that the pass has.
    simp only [List.mem_map]
    rintro step ⟨rule, -, rfl⟩ value
    exact rule.reverts_convert before after value

/-! ### Metrics -/

section Metrics

variable (before after : List Metric)

/-- The name of a metric in a list is found at its index. -/
theorem Metric.name?_append (metric : Metric) (name : String) :
    RollbackTarget.name? (before ++ { metric with name } :: after)
        (.here (.metric before.length)) =
      some ⟨name, fun name => before ++ { metric with name } :: after⟩ := by
  simp [RollbackTarget.name?, Address.here, Part.within, Metric.namePart]

/-- A metric in a list is found at its index. -/
theorem Metric.metric?_append (metric : Metric) :
    RollbackTarget.metric? (before ++ metric :: after) (.here (.metric before.length)) =
      some ⟨metric, fun metric => before ++ metric :: after⟩ := by
  simp [RollbackTarget.metric?, Address.here]

/-- Renaming the attributes of points reverts where each point is found at its index. -/
theorem Point.reverts_forEach {ρ : Type} {whole : List (Point ρ) → List Metric}
    {address : Nat → Address} (table : RenameTable)
    (found : ∀ (first last : List (Point ρ)) (point : Point ρ) (attributes : Attributes),
      RollbackTarget.attributes? (whole (first ++ { point with attributes } :: last))
          (address first.length) =
        some ⟨attributes, fun attributes => whole (first ++ { point with attributes } :: last)⟩)
    (points : List (Point ρ)) :
    Reverts whole points
      (Point.forEach (fun point attributes => table.convert (address point) attributes)
        points) := by
  -- The walk takes one point at a time, and its attributes are found at its index.
  refine .forEach (fun first point last => ?_) points
  exact .map (table.reverts_convert (found first last point) point.attributes) rfl

/-- Renaming the attributes of the points of a metric in a list reverts. -/
theorem Metric.reverts_renameAttributes (table : RenameTable) (metric : Metric) :
    Reverts (fun metric => before ++ metric :: after) metric
      (metric.renameAttributes table before.length) := by
  obtain ⟨name, description, unit, metadata, data⟩ := metric
  -- Points are found alike whatever they read.
  cases data with
  | none => exact .unchanged _ _
  | some data =>
    cases data with
    | numbers kind points =>
      have renamed : Reverts
          (fun points => before ++
            ⟨name, description, unit, metadata, some (.numbers kind points)⟩ :: after) points
          (Point.forEach (fun point => table.convert (.here (.dataPoint before.length point)))
            points) := by
        refine Point.reverts_forEach table (fun first last point attributes => ?_) points
        simp [RollbackTarget.attributes?, Address.here, Part.within, Part.map, Metric.attributes?,
          MetricData.attributes?, Point.attributesPart]
      exact renamed
    | distributions kind points =>
      have renamed : Reverts
          (fun points => before ++
            ⟨name, description, unit, metadata, some (.distributions kind points)⟩ :: after) points
          (Point.forEach (fun point => table.convert (.here (.dataPoint before.length point)))
            points) := by
        refine Point.reverts_forEach table (fun first last point attributes => ?_) points
        simp [RollbackTarget.attributes?, Address.here, Part.within, Part.map, Metric.attributes?,
          MetricData.attributes?, Point.attributesPart]
      exact renamed

/-- Turning a metric of a list into a delta sum reverts. -/
theorem Metric.reverts_toDelta (metric : Metric) :
    Reverts (fun metric => before ++ metric :: after) metric (metric.toDelta before.length) := by
  -- A metric is replaced if it is a cumulative sum with a name on the list.
  unfold Metric.toDelta
  split
  · split
    · -- The metric as it was is the record.
      refine .changed ?_
      simp only [JournalEntry.undo, Metric.metric?_append, putBack]
    · exact .unchanged _ metric
  · exact .unchanged _ metric

/-- A rule for single metrics reverts on each metric of a list. -/
theorem MetricRule.reverts_convert (rule : MetricRule) (metric : Metric) :
    Reverts (fun metric => before ++ metric :: after) metric
      (rule.convert before.length metric) := by
  -- The rule concerns the metric, or it leaves it alone.
  unfold MetricRule.convert
  split
  · -- A rule that concerns the metric has the kind of record that fits what it changes.
    cases rule with
    | rename names =>
      refine .changed ?_
      simp only [JournalEntry.undo, Metric.name?_append, putBack]
    | renameAttributes metrics table =>
      exact metric.reverts_renameAttributes before after table
    | toDelta metrics => exact metric.reverts_toDelta before after
  · exact .unchanged _ metric

end Metrics

/-- A pass over metrics reverts. -/
theorem MetricPass.reverts_convert (pass : MetricPass) (metrics : List Metric) :
    Reverts id metrics (pass.convert metrics) := by
  -- Each metric of the list takes the rules one after the other.
  refine .forEach (fun before metric after => .inSequence ?_ metric) metrics
  simp only [List.mem_map]
  rintro step ⟨rule, -, rfl⟩ value
  exact rule.reverts_convert before after value

/-- A snapshot of a list of metrics undoes whatever was done to the list. -/
theorem undo_replacedMetrics (start metrics : List Metric) :
    (JournalEntry.replacedMetrics (.here .metricList) start).undo metrics = (start, true) := rfl

/-- A split reverts. -/
theorem SplitRule.reverts_convert (rule : SplitRule) (metrics : List Metric) :
    Reverts id metrics (rule.convert metrics) := by
  -- A list of which no point moves is left, and otherwise the whole list is written down.
  unfold SplitRule.convert
  split
  · exact .changed (undo_replacedMetrics metrics _)
  · exact .unchanged _ metrics

/-- A merge reverts, also if it stops while it puts the sources together. -/
theorem MergeRule.reverts_convert (rule : MergeRule) (metrics : List Metric) :
    Reverts id metrics (rule.convert metrics) := by
  -- Without a source, and where the sources do not fit together, nothing is done.
  unfold MergeRule.convert
  split
  · exact .unchanged _ metrics
  · split
    · exact .failed _ metrics _
    · -- The snapshot is the only record, whatever the list has become by the end.
      rename_i before first after _ _ _
      have single := rule.records_gather { rule.tag first with name := rule.metric } after
      simp only [Reverts, Attempt.andThen, Attempt.changed, Attempt.map, single]
      exact ⟨_, rfl, undo_replacedMetrics metrics _⟩

/-- The stages of a version revert. -/
theorem MetricPlan.reverts_convert (plan : MetricPlan) (metrics : List Metric) :
    Reverts id metrics (plan.convert metrics) := by
  -- Each stage reverts, of whichever kind it is.
  refine .inSequence ?_ metrics
  simp only [List.mem_map]
  rintro step ⟨stage, -, rfl⟩ value
  cases stage with
  | pass steps => exact steps.reverts_convert value
  | split rule => exact rule.reverts_convert value
  | merge rule => exact rule.reverts_convert value

end SchemaUplift
