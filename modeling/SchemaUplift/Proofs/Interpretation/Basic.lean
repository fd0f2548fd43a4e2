import SchemaUplift.Proofs.Interpretation.Success
import SchemaUplift.Proofs.Schema.Versions

/-! What a schema file says shall become of data, read off its declarations: version by version and
change by change, each change on all entities, by the names that they have at that time. -/

namespace SchemaUplift

/-! ### Listed changes -/

/-- Where a change to attributes applies. -/
class Scope (σ : Type) where
  /-- Whether it applies everywhere. -/
  isUnscoped : σ → Bool

instance : Scope Unit := ⟨fun _ => true⟩

/-- A scope of names; no names hold every entity. -/
instance : Scope (List String) := ⟨List.isEmpty⟩

instance {σ τ : Type} [Scope σ] [Scope τ] : Scope (σ × τ) :=
  ⟨fun scope => Scope.isUnscoped scope.1 && Scope.isUnscoped scope.2⟩

/-- Whether a scope of names holds an entity of the given name. -/
def isWithin (names : List String) (name : String) : Bool := names.isEmpty || names.contains name

/-- A change listed for one kind of telemetry, where scopes are of type `σ` and changes other than
to attributes of type `β`. -/
inductive ListedChange (σ β : Type) where
  /-- New attribute keys within a scope. -/
  | attributes (scope : σ) (table : RenameTable)
  /-- Another change. -/
  | other (change : β)

namespace ListedChange

variable {σ β : Type}

section Pruning

variable [Scope σ]

/-- Whether an unscoped table among the changes has the key. -/
def renames (changes : List (ListedChange σ β)) (key : String) : Bool :=
  changes.any fun
    | .attributes scope table => Scope.isUnscoped scope && table.contains key
    | .other _ => false

/-- The changes after the deletion, from each unscoped table, of the keys that an unscoped table
further down has too. -/
def pruned : List (ListedChange σ β) → List (ListedChange σ β)
  | [] => []
  | .attributes scope table :: rest =>
    -- Within a scope a table keeps all its keys, and takes none from those before it.
    if Scope.isUnscoped scope then
      .attributes scope (table.filterKeys fun key => !renames rest key) :: pruned rest
    else .attributes scope table :: pruned rest
  | .other change :: rest => .other change :: pruned rest

end Pruning

/-- The listed tables of the sections for all telemetry, at the widest scope. -/
def ofAll (scope : σ) (definitions : List VersionDefinition) : List (ListedChange σ β) :=
  (definitions.flatMap (·.all)).filterMap (Option.map (.attributes scope))

end ListedChange

/-! ### Changes on all entities -/

/-- The attributes under the keys that a table gives them, unless the rename fails. -/
def RenameTable.rename? (table : RenameTable) (attributes : Attributes) : Option Attributes :=
  -- The place shows in the record alone, so that any address will do.
  (table.convert (.here .resource) attributes).success?

namespace ListedChange

/-- Changes a resource. -/
def onResource : ListedChange Unit Empty → Resource → Option Resource
  | .attributes _ table, resource =>
    (table.rename? resource.attributes).map fun attributes => { resource with attributes }

/-- Changes all log records. -/
def onLogs : ListedChange Unit Empty → List LogRecord → Option (List LogRecord)
  | .attributes _ table, records => records.mapM fun record =>
    (table.rename? record.attributes).map fun attributes => { record with attributes }

/-- Changes all spans. -/
def onSpans : ListedChange (List String) Empty → List Span → Option (List Span)
  | .attributes names table, spans => spans.mapM fun span =>
    if isWithin names span.name then
      (table.rename? span.attributes).map fun attributes => { span with attributes }
    else some span

/-- Changes the events of all spans. The scope names spans and events; the other changes give
events new names. -/
def onEvents :
    ListedChange (List String × List String) RenameTable → List Span → Option (List Span)
  | .attributes (spanNames, eventNames) table, spans => spans.mapM fun span =>
    if isWithin spanNames span.name then
      (span.events.mapM fun event =>
        if isWithin eventNames event.name then
          (table.rename? event.attributes).map fun attributes => { event with attributes }
        else some event).map fun events => { span with events }
    else some span
  | .other names, spans => some <| spans.map fun span =>
    -- New names do not depend on the span.
    { span with
      events := span.events.map fun event => { event with name := names.effective event.name } }

end ListedChange

/-- A change to metrics other than to attributes. -/
inductive MetricOperation where
  /-- New metric names. -/
  | rename (names : RenameTable)
  /-- A split. -/
  | split (declaration : SplitDeclaration)
  /-- A merge. -/
  | merge (declaration : MergeDeclaration)
  /-- Cumulative sums to turn into delta sums. -/
  | toDelta (names : List String)

/-- The points with their attributes changed, unless a change fails. -/
def Point.mapAttributes? {ρ : Type} (change : Attributes → Option Attributes)
    (points : List (Point ρ)) : Option (List (Point ρ)) :=
  points.mapM fun point => (change point.attributes).map fun attributes => { point with attributes }

/-- The metric with the attributes of every point changed, unless a change fails. -/
def Metric.mapAttributes? (change : Attributes → Option Attributes) (metric : Metric) :
    Option Metric :=
  match metric.data with
  | none => some metric
  | some (.numbers kind points) => (Point.mapAttributes? change points).map fun points =>
    { metric with data := some (.numbers kind points) }
  | some (.distributions kind points) => (Point.mapAttributes? change points).map fun points =>
    { metric with data := some (.distributions kind points) }

/-- Changes all metrics. -/
def ListedChange.onMetrics :
    ListedChange (List String) MetricOperation → List Metric → Option (List Metric)
  | .attributes names table, metrics => metrics.mapM fun metric =>
    if isWithin names metric.name then metric.mapAttributes? table.rename? else some metric
  | .other (.rename names), metrics =>
    some <| metrics.map fun metric => { metric with name := names.effective metric.name }
  -- A split and a merge are about the list of metrics as a whole.
  | .other (.split declaration), metrics =>
    (SplitRule.convert ⟨declaration.applyToMetric, declaration.byAttribute,
      declaration.metricsFromAttributes.entries⟩ metrics).success?
  | .other (.merge declaration), metrics =>
    (MergeRule.convert ⟨declaration.createMetric, declaration.byAttribute,
      declaration.attributesForMetrics⟩ metrics).success?
  | .other (.toDelta names), metrics => some <| metrics.map fun metric =>
    -- What the sum becomes does not depend on its index, which shows in the record.
    if names.contains metric.name then (metric.toDelta 0).value else metric

/-! ### The changes of a version -/

/-- The changes that one declaration for events makes, new names before new attribute keys. -/
def EventChange.listed (change : EventChange) :
    List (ListedChange (List String × List String) RenameTable) :=
  (change.renameEvents.map .other).toList ++
    (change.renameAttributes.map fun rename =>
      .attributes (rename.applyToSpans, rename.applyToEvents) rename.attributeMap).toList

/-- The changes that one declaration for metrics makes, in the order of its fields. -/
def MetricChange.listed (change : MetricChange) :
    List (ListedChange (List String) MetricOperation) :=
  [.other (.rename change.renameMetrics)] ++
    (change.renameAttributes.map fun rename =>
      .attributes rename.applyToMetrics rename.attributeMap).toList ++
    (change.split.map fun declaration => .other (.split declaration)).toList ++
    (change.merge.map fun declaration => .other (.merge declaration)).toList ++
    [.other (.toDelta change.toDelta)]

namespace VersionDefinition

/-- The changes to resources, those for all telemetry first. -/
def resourceChanges (definitions : List VersionDefinition) : List (ListedChange Unit Empty) :=
  ListedChange.ofAll () definitions ++
    (definitions.flatMap (·.resources)).filterMap (Option.map (.attributes ()))

/-- The changes to log records, those for all telemetry first. -/
def logChanges (definitions : List VersionDefinition) : List (ListedChange Unit Empty) :=
  ListedChange.ofAll () definitions ++
    (definitions.flatMap (·.logs)).filterMap (Option.map (.attributes ()))

/-- The changes to spans, those for all telemetry first. -/
def spanChanges (definitions : List VersionDefinition) :
    List (ListedChange (List String) Empty) :=
  ListedChange.ofAll [] definitions ++ (definitions.flatMap (·.spans)).filterMap
    (Option.map fun rename => .attributes rename.applyToSpans rename.attributeMap)

/-- The changes to span events, those for all telemetry first. -/
def eventChanges (definitions : List VersionDefinition) :
    List (ListedChange (List String × List String) RenameTable) :=
  ListedChange.ofAll ([], []) definitions ++
    (definitions.flatMap (·.spanEvents)).flatMap EventChange.listed

/-- The changes to metrics, those for all telemetry first. -/
def metricChanges (definitions : List VersionDefinition) :
    List (ListedChange (List String) MetricOperation) :=
  ListedChange.ofAll [] definitions ++
    (definitions.flatMap (·.metrics)).flatMap MetricChange.listed

end VersionDefinition

/-! ### From version to version -/

namespace SchemaFile

/-- The distinct versions newer than `start`, ascending. -/
def newerVersions (file : SchemaFile) (start : Version) : List Version :=
  file.distinctVersions.filter (start < ·)

/-- What becomes of a resource at version `start`, if its conversion does not fail. -/
def interpretResource (file : SchemaFile) (start : Version) : Resource → Option Resource :=
  inOrder <| (file.newerVersions start).map fun version =>
    inOrder ((ListedChange.pruned (VersionDefinition.resourceChanges
      (file.definitions version))).map ListedChange.onResource)

/-- What becomes of spans at version `start`, if their conversion does not fail; the spans change
first and then their events. -/
def interpretSpans (file : SchemaFile) (start : Version) : List Span → Option (List Span) :=
  inOrder <| (file.newerVersions start).map fun version => inOrder <|
    (ListedChange.pruned (VersionDefinition.spanChanges
      (file.definitions version))).map ListedChange.onSpans ++
    (ListedChange.pruned (VersionDefinition.eventChanges
      (file.definitions version))).map ListedChange.onEvents

/-- What becomes of metrics at version `start`, if their conversion does not fail. -/
def interpretMetrics (file : SchemaFile) (start : Version) : List Metric → Option (List Metric) :=
  inOrder <| (file.newerVersions start).map fun version =>
    inOrder ((ListedChange.pruned (VersionDefinition.metricChanges
      (file.definitions version))).map ListedChange.onMetrics)

/-- What becomes of log records at version `start`, if their conversion does not fail. -/
def interpretLogs (file : SchemaFile) (start : Version) :
    List LogRecord → Option (List LogRecord) :=
  inOrder <| (file.newerVersions start).map fun version =>
    inOrder ((ListedChange.pruned (VersionDefinition.logChanges
      (file.definitions version))).map ListedChange.onLogs)

end SchemaFile

end SchemaUplift
