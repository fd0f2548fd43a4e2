import SchemaUplift.Proofs.Interpretation.Basic
import SchemaUplift.Proofs.Rule.Routing
import SchemaUplift.Proofs.Schema.Pruning

/-! Chains of rules do what the listed changes say: pruned alike, without the rules that change
nothing, and entity by entity instead of change by change. -/

namespace SchemaUplift

/-! ### Pruning -/

section Pruning

variable {σ β α γ : Type} [Scope σ] [Prunable α]

/-- Rules stand for listed changes such that the unscoped tables are the same. -/
structure StandsFor (toRule : ListedChange σ β → α) : Prop where
  /-- A rule has an unscoped table exactly if its change has. -/
  unscoped? : ∀ scope table, Prunable.unscoped? (toRule (.attributes scope table)) =
    if Scope.isUnscoped scope then some table else none
  /-- A rule with another table stands for the change with that table. -/
  withTable : ∀ scope table other, Prunable.withTable (toRule (.attributes scope table)) other =
    toRule (.attributes scope other)
  /-- Other changes have no table. -/
  other : ∀ change, Prunable.unscoped? (toRule (.other change)) = none

namespace StandsFor

variable {toRule : ListedChange σ β → α} (stands : StandsFor toRule)
include stands

/-- The rules rename a key exactly if the changes do. -/
theorem renames_map (changes : List (ListedChange σ β)) (key : String) :
    Prunable.renames (changes.map toRule) key = ListedChange.renames changes key := by
  -- Change by change, a rule renames the key exactly if its change does.
  simp only [Prunable.renames, ListedChange.renames, List.filterMap_map, List.any_filterMap]
  congr 1
  funext change
  cases change with
  | attributes scope table =>
    cases unscoped : Scope.isUnscoped scope <;> simp [stands.unscoped?, unscoped]
  | other change => simp [stands.other]

/-- Rules are pruned as the changes are. -/
theorem keepLast_map (changes : List (ListedChange σ β)) :
    Prunable.keepLast (changes.map toRule) = (ListedChange.pruned changes).map toRule := by
  -- The induction prunes the first rule by the rest, which renames the same keys.
  induction changes with
  | nil => rfl
  | cons change rest ih =>
    rw [List.map_cons, Prunable.keepLast_cons, ih]
    cases change with
    | attributes scope table =>
      cases unscoped : Scope.isUnscoped scope <;>
        simp [ListedChange.pruned, stands.unscoped?, stands.withTable, stands.renames_map, unscoped]
    | other change => simp [ListedChange.pruned, stands.other]

/-- A chain of rules without those that change nothing does what the pruned changes say, if each
rule does what its change says. -/
theorem inOrder_keepLast {run : α → γ → Option γ} {onAll : ListedChange σ β → γ → Option γ}
    {needed : α → Bool} (agree : ∀ change, run (toRule change) = onAll change)
    (idle : ∀ rule, needed rule = false → run rule = some) (changes : List (ListedChange σ β)) :
    inOrder (((Prunable.keepLast (changes.map toRule)).filter needed).map run) =
      inOrder ((ListedChange.pruned changes).map onAll) := by
  -- Rules that change nothing are idle steps, and what is left stands for the pruned changes.
  rw [inOrder_map_filter fun rule _ => idle rule, stands.keepLast_map, List.map_map]
  simp only [Function.comp_def, agree]

end StandsFor

end Pruning

/-! ### Tables -/

namespace RenameTable

/-- A rename succeeds alike at all places. -/
theorem success?_convert (table : RenameTable) (address : Address) (attributes : Attributes) :
    (table.convert address attributes).success? = table.rename? attributes := by
  -- The address goes into the record alone.
  simp only [rename?, convert]
  split <;> rfl

/-- The empty table renames nothing. -/
theorem rename?_of_isEmpty {table : RenameTable} (void : table.isEmpty = true)
    (attributes : Attributes) : table.rename? attributes = some attributes := by
  -- No key is in the empty table, so that there is nothing to check or to write.
  have absent : (attributes.any fun entry => table.contains entry.key) = false := by
    simp [Table.contains_of_isEmpty void]
  rw [rename?, convert, absent]
  rfl

/-- A resource is renamed by its attributes. -/
theorem success?_convertResource (table : RenameTable) (resource : Resource) :
    (table.convertResource resource).success? =
      (table.rename? resource.attributes).map fun attributes => { resource with attributes } := by
  rw [convertResource, Attempt.success?_map, success?_convert]

/-- A log record is renamed by its attributes, alike at all positions. -/
theorem success?_convertLogRecord (table : RenameTable) (index : Nat) (record : LogRecord) :
    (table.convertLogRecord index record).success? =
      (table.rename? record.attributes).map fun attributes => { record with attributes } := by
  rw [convertLogRecord, Attempt.success?_map, success?_convert]

/-- The empty table gives no new name. -/
theorem effective_of_isEmpty {table : RenameTable} (void : table.isEmpty = true) (name : String) :
    table.effective name = name := by
  -- A name that no table has stays as it is.
  have absent := Table.contains_of_isEmpty void name
  simp_all [Table.contains, effective]

end RenameTable

/-- The tables for all telemetry are those of the listed changes. -/
theorem ListedChange.map_ofAll {σ β α : Type} (toRule : ListedChange σ β → α) (scope : σ)
    (definitions : List VersionDefinition) :
    (ofAll scope definitions).map toRule = (VersionDefinition.allTables definitions).map
      fun table => toRule (.attributes scope table) := by
  -- Both sides go through the declarations in the same order.
  simp [ofAll, VersionDefinition.allTables, List.filterMap_flatMap, List.map_filterMap,
    List.map_flatMap, Function.comp_def]

namespace ListedChange

/-- The table of a change to resources or log records. -/
def table : ListedChange Unit Empty → RenameTable
  | .attributes _ table => table

/-- Tables stand for changes to resources and log records. -/
theorem standsFor_table : StandsFor table where
  unscoped? _ _ := rfl
  withTable _ _ _ := rfl
  other change := change.elim

end ListedChange

namespace VersionDefinition

/-- The tables for resources are those of the listed changes. -/
theorem resourceTables_eq (definitions : List VersionDefinition) :
    resourceTables definitions = (resourceChanges definitions).map ListedChange.table := by
  -- Tables for all telemetry come first on both sides, then those for resources.
  simp [resourceTables, resourceChanges, ListedChange.map_ofAll, ListedChange.table,
    List.filterMap_flatMap, List.map_filterMap, List.map_flatMap, Function.comp_def]

/-- The tables for log records are those of the listed changes. -/
theorem logTables_eq (definitions : List VersionDefinition) :
    logTables definitions = (logChanges definitions).map ListedChange.table := by
  -- Tables for all telemetry come first on both sides, then those for log records.
  simp [logTables, logChanges, ListedChange.map_ofAll, ListedChange.table,
    List.filterMap_flatMap, List.map_filterMap, List.map_flatMap, Function.comp_def]

end VersionDefinition

namespace VersionStep

variable {version : Version} {definitions : List VersionDefinition} {step : VersionStep}

/-- A step changes a resource as the changes listed for it say. -/
theorem success?_convertResource (made : ofDefinitions version definitions = .ok step)
    (resource : Resource) : (step.convertResource resource).success? =
      inOrder ((ListedChange.pruned (VersionDefinition.resourceChanges definitions)).map
        ListedChange.onResource) resource := by
  -- The tables of the step are those of the changes, pruned, and without the empty ones.
  obtain ⟨stages, -, rfl⟩ := eq_of_ofDefinitions made
  rw [convertResource, Attempt.success?_inSequence, List.map_map,
    VersionDefinition.resourceTables_eq, ListedChange.standsFor_table.inOrder_keepLast]
  · intro change
    cases change with
    | attributes scope table => exact funext table.success?_convertResource
    | other change => exact change.elim
  · -- An empty table changes no resource.
    intro table void
    funext resource
    rw [Function.comp_apply, RenameTable.success?_convertResource,
      RenameTable.rename?_of_isEmpty (by simpa using void)]
    rfl

/-- A step may apply each table to all log records before it goes on to the next table. -/
theorem success?_convertLogs_eq (step : VersionStep) (records : List LogRecord) :
    (step.convertLogs records).success? = inOrder (step.logs.map fun table records =>
      records.mapM fun record => (table.convertLogRecord 0 record).success?) records := by
  -- A table succeeds alike on a record at every position.
  have each (index : Nat) (record : LogRecord) :
      (Attempt.inSequence (step.logs.map fun table => table.convertLogRecord index)
        record).success? =
        inOrder (step.logs.map fun table record => (table.convertLogRecord 0 record).success?)
          record := by
    simp [Attempt.success?_inSequence, Function.comp_def, RenameTable.success?_convertLogRecord]
  -- Each record takes all tables in order, which may be exchanged with the walk over the records.
  rw [convertLogs, Attempt.success?_forEach each, mapM_inOrder, List.map_map]
  rfl

/-- A step changes log records as the changes listed for them say. -/
theorem success?_convertLogs (made : ofDefinitions version definitions = .ok step)
    (records : List LogRecord) : (step.convertLogs records).success? =
      inOrder ((ListedChange.pruned (VersionDefinition.logChanges definitions)).map
        ListedChange.onLogs) records := by
  rw [success?_convertLogs_eq]
  obtain ⟨stages, -, rfl⟩ := eq_of_ofDefinitions made
  rw [VersionDefinition.logTables_eq, ListedChange.standsFor_table.inOrder_keepLast]
  · -- A table changes all records as the change says, at whatever positions they are.
    intro change
    cases change with
    | attributes scope table =>
      exact funext fun records =>
        congrArg (records.mapM ·) (funext (table.success?_convertLogRecord 0))
    | other change => exact change.elim
  · -- An empty table changes no record.
    intro table void
    have idle : (fun record => (table.convertLogRecord 0 record).success?) = some := by
      funext record
      rw [RenameTable.success?_convertLogRecord,
        RenameTable.rename?_of_isEmpty (by simpa using void)]
      rfl
    funext records
    simp only [idle]
    exact mapM_some records

end VersionStep

/-! ### Rules for spans and events -/

/-- What a rule makes of a span, unless it fails. -/
def SpanRule.effect? (rule : SpanRule) (span : Span) : Option Span :=
  if rule.appliesTo span.name then
    (rule.table.rename? span.attributes).map fun attributes => { span with attributes }
  else some span

/-- A rule succeeds alike on all positions of a span. -/
theorem SpanRule.success?_convert (rule : SpanRule) (index : Nat) (span : Span) :
    (rule.convert index span).success? = rule.effect? span := by
  -- The scope decides on both sides whether the table is used.
  rw [SpanRule.convert, effect?]
  split <;> simp [RenameTable.success?_convert]

/-- A rule with an empty table changes no span. -/
theorem SpanRule.effect?_of_isEmpty (rule : SpanRule) (void : rule.table.isEmpty = true) :
    rule.effect? = some := by
  funext span
  -- The scope makes no difference where the table has nothing to rename.
  rw [effect?, RenameTable.rename?_of_isEmpty void]
  exact ite_self _

/-- What a rule makes of the events of a span, unless it fails. -/
def EventRule.effect? : EventRule → Span → Option Span
  | .renameEvents names, span => some { span with
      events := span.events.map fun event => { event with name := names.effective event.name } }
  | .renameAttributes spans events table, span =>
    if spans.covers span.name then
      (span.events.mapM fun event =>
        if events.covers event.name then
          (table.rename? event.attributes).map fun attributes => { event with attributes }
        else some event).map fun events => { span with events }
    else some span

/-- An event rule succeeds alike on all positions of a span. -/
theorem EventRule.success?_convert (rule : EventRule) (index : Nat) (span : Span) :
    (rule.convert index span).success? = rule.effect? span := by
  -- Both kinds of rule go through the events, each of which is changed alike at all places.
  cases rule with
  | renameEvents names =>
    have each (place : Nat) (event : SpanEvent) :
        (renameEvent names (.here (.spanEvent index place)) event).success? =
          some { event with name := names.effective event.name } := by
      rw [renameEvent, RenameTable.effective]
      split <;> simp_all
    -- Renaming events cannot fail, so that the walk is a plain map.
    have all := List.mapM_pure (m := Option) (l := span.events)
      (f := fun event => { event with name := names.effective event.name })
    simp only [EventRule.convert, effect?, Attempt.success?_map, Attempt.success?_forEach each]
    exact congrArg (Option.map _) all
  | renameAttributes spans events table =>
    have each (place : Nat) (event : SpanEvent) :
        (convertAttributes events table (.here (.spanEvent index place)) event).success? =
          if events.covers event.name then
            (table.rename? event.attributes).map fun attributes => { event with attributes }
          else some event := by
      rw [convertAttributes]
      split <;> simp [RenameTable.success?_convert]
    simp only [EventRule.convert, effect?]
    -- The scope of spans decides on both sides whether events are looked at.
    split
    · rw [Attempt.success?_map, Attempt.success?_forEach each]
    · rfl

/-- An event rule that renames nothing changes no span. -/
theorem EventRule.effect?_of_isVoid (rule : EventRule) (void : rule.isVoid = true) :
    rule.effect? = some := by
  -- Neither kind of rule changes any event of the span.
  funext span
  cases rule with
  | renameEvents names =>
    simp [effect?, RenameTable.effective_of_isEmpty void]
  | renameAttributes spans events table =>
    have same (event : SpanEvent) :
        (if events.covers event.name then
          (table.rename? event.attributes).map fun attributes => { event with attributes }
        else some event) = some event := by
      rw [RenameTable.rename?_of_isEmpty void]
      exact ite_self _
    simp only [effect?, same]
    rw [mapM_some]
    exact ite_self _

namespace SpanPass

/-- A pass may apply each rule to all spans before it goes on to the next rule. -/
theorem success?_convert (pass : SpanPass) (spans : List Span) :
    (pass.convert spans).success? =
      inOrder (pass.rules.map (fun rule spans => spans.mapM rule.effect?) ++
        pass.events.map fun rule spans => spans.mapM rule.effect?) spans := by
  -- On one span, the rules for spans come first and then those for events.
  have each (index : Nat) (span : Span) :
      ((Attempt.inSequence (pass.rules.map (·.convert index)) span).andThen
        (Attempt.inSequence (pass.events.map (·.convert index)))).success? =
      inOrder (pass.rules.map SpanRule.effect? ++ pass.events.map EventRule.effect?) span := by
    simp [Attempt.success?_inSequence, Function.comp_def, inOrder_append,
      SpanRule.success?_convert, EventRule.success?_convert]
  -- Each span takes all rules in order, which may be exchanged with the walk over the spans.
  rw [pass.convert_eq, Attempt.success?_forEach each, mapM_inOrder, List.map_append, List.map_map,
    List.map_map]
  rfl

end SpanPass

namespace ListedChange

/-- The rule of a change to spans. -/
def spanRule : ListedChange (List String) Empty → SpanRule
  | .attributes names table => ⟨.ofNames names, table⟩

/-- Rules for spans stand for the changes to spans. -/
theorem standsFor_spanRule : StandsFor spanRule where
  -- The names of a scope are a set that is empty exactly if no name is listed.
  unscoped? names _ := by
    simp [Prunable.unscoped?, spanRule, NameSet.isEmpty_ofNames, Scope.isUnscoped]
  withTable _ _ _ := rfl
  other change := change.elim

/-- The rule of a change to span events. -/
def eventRule : ListedChange (List String × List String) RenameTable → EventRule
  | .attributes (spanNames, eventNames) table =>
    .renameAttributes (.ofNames spanNames) (.ofNames eventNames) table
  | .other names => .renameEvents names

/-- Rules for events stand for the changes to events. -/
theorem standsFor_eventRule : StandsFor eventRule where
  -- Both sets of names are empty exactly if neither scope lists a name.
  unscoped? names _ := by
    simp [Prunable.unscoped?, eventRule, NameSet.isEmpty_ofNames, Scope.isUnscoped]
  withTable _ _ _ := rfl
  other _ := rfl

/-- The rule of a change to spans does what the change says. -/
theorem effect?_spanRule (change : ListedChange (List String) Empty) :
    (fun spans => spans.mapM change.spanRule.effect?) = change.onSpans := by
  -- A span is in the scope of the rule exactly if it is in the scope of the change.
  cases change with
  | attributes names table =>
    funext spans
    refine congrArg (spans.mapM ·) (funext fun span => ?_)
    simp only [spanRule, SpanRule.effect?, SpanRule.appliesTo, NameSet.covers_ofNames, isWithin]
    rfl
  | other change => exact change.elim

/-- The rule of a change to span events does what the change says. -/
theorem effect?_eventRule (change : ListedChange (List String × List String) RenameTable) :
    (fun spans => spans.mapM change.eventRule.effect?) = change.onEvents := by
  funext spans
  -- Attribute tables depend on the scopes, and new names concern all events.
  cases change with
  | attributes names table =>
    refine congrArg (spans.mapM ·) (funext fun span => ?_)
    simp only [eventRule, EventRule.effect?, NameSet.covers_ofNames, isWithin]
    rfl
  | other names => exact List.mapM_pure

end ListedChange

namespace VersionDefinition

/-- The rules for spans are those of the listed changes. -/
theorem spanRules_eq (definitions : List VersionDefinition) :
    spanRules definitions = (spanChanges definitions).map ListedChange.spanRule := by
  -- The tables for all telemetry come first on both sides.
  simp only [spanRules, spanChanges, List.map_append, ListedChange.map_ofAll]
  congr 1
  simp [List.filterMap_flatMap, List.map_filterMap, List.map_flatMap, Function.comp_def,
    ListedChange.spanRule]

/-- The rules for events are those of the listed changes. -/
theorem eventRules_eq (definitions : List VersionDefinition) :
    eventRules definitions = (eventChanges definitions).map ListedChange.eventRule := by
  -- Each declaration stands for the rules of the changes that it lists.
  have each : EventChange.rules = fun change => change.listed.map ListedChange.eventRule := by
    funext ⟨events, attributes⟩
    cases events <;> cases attributes <;> rfl
  simp only [eventRules, eventChanges, List.map_append, ListedChange.map_ofAll, List.map_flatMap,
    List.flatMap_assoc, each]
  rfl

end VersionDefinition

/-- A step changes spans and events as the changes listed for them say. -/
theorem VersionStep.success?_convertSpans {version : Version}
    {definitions : List VersionDefinition} {step : VersionStep}
    (made : ofDefinitions version definitions = .ok step) (spans : List Span) :
    (step.spans.convert spans).success? = inOrder
      ((ListedChange.pruned (VersionDefinition.spanChanges definitions)).map
          ListedChange.onSpans ++
        (ListedChange.pruned (VersionDefinition.eventChanges definitions)).map
          ListedChange.onEvents) spans := by
  -- The rules for spans and those for events are two chains, one after the other.
  obtain ⟨stages, -, rfl⟩ := eq_of_ofDefinitions made
  rw [SpanPass.success?_convert, inOrder_append, inOrder_append,
    VersionDefinition.spanRules_eq, VersionDefinition.eventRules_eq,
    ListedChange.standsFor_spanRule.inOrder_keepLast ListedChange.effect?_spanRule,
    ListedChange.standsFor_eventRule.inOrder_keepLast ListedChange.effect?_eventRule]
  · -- A rule for events that renames nothing changes no span.
    intro rule void
    funext spans
    rw [rule.effect?_of_isVoid (by simpa using void), mapM_some]
  · -- A rule with an empty table changes no span.
    intro rule void
    funext spans
    rw [rule.effect?_of_isEmpty (by simpa using void), mapM_some]

end SchemaUplift
