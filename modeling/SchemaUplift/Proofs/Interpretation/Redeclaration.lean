import SchemaUplift.Proofs.Interpretation.Compilation
import SchemaUplift.Proofs.Rename

/-! Tables that no later table prunes, where one version is declared several times: metric names,
event names, and attribute keys within a scope. They apply in turn, each to the name that is in use
by then. -/

namespace SchemaUplift

/-! ### Tables in turn -/

namespace RenameTable

/-- The name that is in use after tables are applied one after the other. -/
def inTurn (tables : List RenameTable) (name : String) : String :=
  tables.foldl (fun name table => table.effective name) name

/-- A lone attribute gets the key that the table gives it. -/
theorem rename?_singleton (table : RenameTable) (entry : Attribute) :
    table.rename? [entry] = some [table.renamed entry] :=
  rename?_eq_some_iff.2 ⟨fun _ => List.nodup_singleton _, rfl⟩

end RenameTable

/-- Where the steps of one table rename what a value carries, the steps of several tables rename it
in turn. -/
theorem inOrder_flatMap_inTurn {α : Type} {steps : RenameTable → List (α → Option α)}
    {carrier : String → α}
    (each : ∀ table name, inOrder (steps table) (carrier name) =
      some (carrier (table.effective name))) (tables : List RenameTable) (name : String) :
    inOrder (tables.flatMap steps) (carrier name) =
      some (carrier (RenameTable.inTurn tables name)) := by
  -- The first table renames the name, and the others take it from there.
  induction tables generalizing name with
  | nil => rfl
  | cons table rest ih => rw [List.flatMap_cons, inOrder_append, each, Option.bind_some, ih]; rfl

/-- Changes without an unscoped table are not pruned. -/
theorem ListedChange.pruned_eq_self {σ β : Type} [Scope σ] {changes : List (ListedChange σ β)}
    (narrow : ∀ scope table, .attributes scope table ∈ changes → Scope.isUnscoped scope = false) :
    pruned changes = changes := by
  -- The induction looks at the first change, which is pruned by the others if it has no scope.
  induction changes with
  | nil => rfl
  | cons change rest ih =>
    -- None of the other changes has an unscoped table either.
    have others := ih fun scope table member => narrow scope table (List.mem_cons_of_mem _ member)
    cases change with
    | attributes scope table =>
      -- A table within a scope loses no keys.
      have here := narrow scope table List.mem_cons_self
      rw [pruned, if_neg (by simp [here]), others]
    -- A change of another kind has no table to prune.
    | other change => rw [pruned, others]

/-! ### Declarations of one kind -/

/-- The kinds of tables that are not for all telemetry; the names are those of a scope. -/
inductive TableKind where
  /-- New names of metrics. -/
  | metricNames
  /-- New attribute keys of the points of metrics. -/
  | pointKeys (metrics : List String)
  /-- New attribute keys of spans. -/
  | spanKeys (spans : List String)
  /-- New names of span events. -/
  | eventNames
  /-- New attribute keys of events on spans. -/
  | eventKeys (spans events : List String)

/-- Whether the scope of the tables is everything, so that later tables prune earlier ones. -/
def TableKind.isUnscoped : TableKind → Bool
  | .metricNames | .eventNames => false
  | .pointKeys metrics => metrics.isEmpty
  | .spanKeys spans => spans.isEmpty
  | .eventKeys spans events => spans.isEmpty && events.isEmpty

/-- The definition that declares tables of one kind, in order, and nothing else. -/
def VersionDefinition.ofTables (kind : TableKind) (tables : List RenameTable) :
    VersionDefinition :=
  match kind with
  | .metricNames => { empty with metrics := tables.map (⟨·, none, none, none, []⟩) }
  | .pointKeys metrics =>
    { empty with metrics := tables.map (⟨∅, some ⟨metrics, ·⟩, none, none, []⟩) }
  | .spanKeys spans => { empty with spans := tables.map (some ⟨·, spans⟩) }
  | .eventNames => { empty with spanEvents := tables.map (⟨some ·, none⟩) }
  | .eventKeys spans events =>
    { empty with spanEvents := tables.map (⟨none, some ⟨spans, events, ·⟩⟩) }

namespace VersionDefinition

variable (declared : List (List RenameTable))

/-- Declarations of metric names list their tables in order. -/
theorem metricChanges_metricNames :
    metricChanges (declared.map (ofTables .metricNames)) = declared.flatten.flatMap fun names =>
      [.other (.rename names), .other (.toDelta [])] := by
  -- A declaration of metric names lists the rename and, always, an empty list of delta sums.
  simp [metricChanges, ListedChange.ofAll, ofTables, empty, MetricChange.listed, List.flatMap_def,
    Function.comp_def]

/-- Declarations of keys of points list their tables in order. -/
theorem metricChanges_pointKeys (metrics : List String) :
    metricChanges (declared.map (ofTables (.pointKeys metrics))) =
      declared.flatten.flatMap fun table =>
        [.other (.rename ∅), .attributes metrics table, .other (.toDelta [])] := by
  -- A declaration of point keys also lists an empty rename of metrics.
  simp [metricChanges, ListedChange.ofAll, ofTables, empty, MetricChange.listed, List.flatMap_def,
    Function.comp_def]

/-- Declarations of keys of spans list their tables in order, and nothing for events. -/
theorem spanChanges_spanKeys (spans : List String) :
    spanChanges (declared.map (ofTables (.spanKeys spans))) =
        declared.flatten.flatMap (fun table => [.attributes spans table]) ∧
      eventChanges (declared.map (ofTables (.spanKeys spans))) = [] := by
  -- Each declaration lists one change.
  rw [← List.map_eq_flatMap]
  simp [spanChanges, eventChanges, ListedChange.ofAll, ofTables, empty, List.flatMap_def,
    Function.comp_def]

/-- Declarations of event names list their tables in order, and nothing for spans. -/
theorem eventChanges_eventNames :
    spanChanges (declared.map (ofTables .eventNames)) = [] ∧
      eventChanges (declared.map (ofTables .eventNames)) =
        declared.flatten.flatMap fun names => [.other names] := by
  -- A declaration of event names lists one change to events and none to spans.
  simp [spanChanges, eventChanges, ListedChange.ofAll, ofTables, empty, EventChange.listed,
    List.flatMap_def, Function.comp_def]

/-- Declarations of keys of events list their tables in order, and nothing for spans. -/
theorem eventChanges_eventKeys (spans events : List String) :
    spanChanges (declared.map (ofTables (.eventKeys spans events))) = [] ∧
      eventChanges (declared.map (ofTables (.eventKeys spans events))) =
        declared.flatten.flatMap fun table => [.attributes (spans, events) table] := by
  -- Each declaration lists one change to events and none to spans.
  simp [spanChanges, eventChanges, ListedChange.ofAll, ofTables, empty, EventChange.listed,
    List.flatMap_def, Function.comp_def]

end VersionDefinition

/-! ### What carries a name -/

/-- A list with one span, whose only attribute has the key. -/
def Span.withKey (span : Span) (value : Value) (key : String) : List Span :=
  [{ span with attributes := [⟨key, value⟩] }]

/-- A list with one span, whose only event has the name. -/
def SpanEvent.withName (span : Span) (event : SpanEvent) (name : String) : List Span :=
  [{ span with events := [{ event with name }] }]

/-- A list with one span, the only attribute of whose only event has the key. -/
def SpanEvent.withKey (span : Span) (event : SpanEvent) (value : Value) (key : String) :
    List Span :=
  [{ span with events := [{ event with attributes := [⟨key, value⟩] }] }]

/-- A list with one metric, the only attribute of each of whose points has the key. -/
def Metric.withKey (metric : Metric) (value : Value) (key : String) : List Metric :=
  [metric.mapAttributes fun _ _ => [⟨key, value⟩]]

/-- A change to attributes that all points of a metric share changes them on all points. -/
theorem Metric.mapAttributes?_mapAttributes {change : Attributes → Option Attributes}
    {attributes result : Attributes} (changed : change attributes = some result)
    (metric : Metric) : (metric.mapAttributes fun _ _ => attributes).mapAttributes? change =
      some (metric.mapAttributes fun _ _ => result) := by
  -- Points of both kinds are changed alike.
  have points {ρ : Type} (points : List (Point ρ)) :
      Point.mapAttributes? change (points.mapIdx fun _ point => { point with attributes }) =
        some (points.mapIdx fun _ point => { point with attributes := result }) := by
    -- Each point of the list has the attributes, whatever it reads.
    rw [Point.mapAttributes?]
    induction points with
    | nil => rfl
    | cons point rest ih => simp [changed, ih]
  -- A metric without data has no points to change.
  obtain ⟨name, description, unit, metadata, data⟩ := metric
  cases data with
  | none => rfl
  | some data =>
    cases data <;> simp [mapAttributes, mapAttributes?, MetricData.mapAttributes, points]

namespace ListedChange

/-- Metric names are renamed by each table. -/
theorem inOrder_rename_metric (metric : Metric) (names : RenameTable) (name : String) :
    inOrder [onMetrics (.other (.rename names)), onMetrics (.other (.toDelta []))]
      [{ metric with name }] = some [{ metric with name := names.effective name }] := by
  -- A rename of metrics cannot fail, and an empty list of delta sums changes none.
  simp [inOrder, onMetrics]

/-- Keys of points are renamed by each table in whose scope the metric is. -/
theorem inOrder_pointKeys {metrics : List String} {metric : Metric}
    (covered : isWithin metrics metric.name = true) (value : Value) (table : RenameTable)
    (key : String) :
    inOrder [onMetrics (.other (.rename ∅)), onMetrics (.attributes metrics table),
      onMetrics (.other (.toDelta []))] (metric.withKey value key) =
        some (metric.withKey value (table.effective key)) := by
  -- Each point has the one attribute, so that the table renames it everywhere.
  have renamed := metric.mapAttributes?_mapAttributes (table.rename?_singleton ⟨key, value⟩)
  have within : isWithin metrics (metric.mapAttributes fun _ _ => [⟨key, value⟩]).name = true :=
    covered
  -- The declaration names no metrics to rename or to turn into delta sums.
  have same (name : String) : RenameTable.effective ∅ name = name :=
    RenameTable.effective_of_isEmpty rfl name
  simp [inOrder, onMetrics, Metric.withKey, same, within, renamed, RenameTable.renamed]

/-- Keys of spans are renamed by each table in whose scope the span is. -/
theorem onSpans_withKey {spans : List String} {span : Span}
    (covered : isWithin spans span.name = true) (value : Value) (table : RenameTable)
    (key : String) : onSpans (.attributes spans table) (span.withKey value key) =
      some (span.withKey value (table.effective key)) := by
  -- The span is in scope, and its one attribute cannot clash.
  simp [onSpans, Span.withKey, covered, RenameTable.rename?_singleton, RenameTable.renamed]

/-- Event names are renamed by each table. -/
theorem onEvents_withName (span : Span) (event : SpanEvent) (names : RenameTable)
    (name : String) : onEvents (.other names) (event.withName span name) =
      some (event.withName span (names.effective name)) := rfl

/-- Keys of events are renamed by each table in whose scopes the span and the event are. -/
theorem onEvents_withKey {spans events : List String} {span : Span} {event : SpanEvent}
    (spanCovered : isWithin spans span.name = true)
    (eventCovered : isWithin events event.name = true) (value : Value) (table : RenameTable)
    (key : String) :
    onEvents (.attributes (spans, events) table) (event.withKey span value key) =
      some (event.withKey span value (table.effective key)) := by
  -- The span and the event are in scope, and the one attribute cannot clash.
  simp [onEvents, SpanEvent.withKey, spanCovered, eventCovered, RenameTable.rename?_singleton,
    RenameTable.renamed]

end ListedChange

/-- Tables of the kind rename `old` to `new` in data from version `start`: whatever is in scope and
carries the old name alone carries the new one after its conversion, and is otherwise the same. -/
def TableKind.Renames (kind : TableKind) (schema : Schema) (start : Version)
    (old new : String) : Prop :=
  match kind with
  | .metricNames => ∀ metric : Metric,
    (schema.convertMetrics start [{ metric with name := old }]).success? =
      some [{ metric with name := new }]
  | .pointKeys metrics => ∀ (metric : Metric) (value : Value),
    isWithin metrics metric.name = true →
      (schema.convertMetrics start (metric.withKey value old)).success? =
        some (metric.withKey value new)
  | .spanKeys spans => ∀ (span : Span) (value : Value), isWithin spans span.name = true →
    (schema.convertSpans start (span.withKey value old)).success? =
      some (span.withKey value new)
  | .eventNames => ∀ (span : Span) (event : SpanEvent),
    (schema.convertSpans start (event.withName span old)).success? =
      some (event.withName span new)
  | .eventKeys spans events => ∀ (span : Span) (event : SpanEvent) (value : Value),
    isWithin spans span.name = true → isWithin events event.name = true →
      (schema.convertSpans start (event.withKey span value old)).success? =
        some (event.withKey span value new)

/-! ### Conversion to a version that is declared several times -/

namespace Schema

section Next

variable {file : SchemaFile} {schema : Schema} {start version : Version}

/-- Metrics for which one version is newer are changed by its definitions alone. -/
theorem success?_convertMetrics_of_newerVersions (made : ofFile file = .ok schema)
    (next : file.newerVersions start = [version]) (metrics : List Metric) :
    (schema.convertMetrics start metrics).success? =
      inOrder ((ListedChange.pruned (VersionDefinition.metricChanges
        (file.definitions version))).map ListedChange.onMetrics) metrics := by
  -- The only step that is pending is made from the definitions of that version.
  rw [convertMetrics_eq, success?_inSequence_pending made VersionStep.success?_convertMetrics,
    next, List.map_singleton, inOrder_singleton]

/-- Spans for which one version is newer are changed by its definitions alone. -/
theorem success?_convertSpans_of_newerVersions (made : ofFile file = .ok schema)
    (next : file.newerVersions start = [version]) (spans : List Span) :
    (schema.convertSpans start spans).success? = inOrder
      ((ListedChange.pruned (VersionDefinition.spanChanges (file.definitions version))).map
          ListedChange.onSpans ++
        (ListedChange.pruned (VersionDefinition.eventChanges (file.definitions version))).map
          ListedChange.onEvents) spans := by
  -- As with metrics, one step is pending.
  rw [convertSpans_eq, success?_inSequence_pending made VersionStep.success?_convertSpans, next,
    List.map_singleton, inOrder_singleton]

/-- Where a version is declared several times, by nothing but tables of metric names, of event
names, or of attribute keys within one scope, the tables of all declarations apply in turn, each to
the name that is in use by then. So the first table that has a name decides on it, and not the last
one, unless a later table has the new name. -/
theorem renames_inTurn (made : ofFile file = .ok schema)
    (next : file.newerVersions start = [version]) {kind : TableKind}
    (narrow : kind.isUnscoped = false) {declared : List (List RenameTable)}
    (only : file.definitions version = declared.map (.ofTables kind)) (old : String) :
    kind.Renames schema start old (RenameTable.inTurn declared.flatten old) := by
  have onMetrics := success?_convertMetrics_of_newerVersions made next
  have onSpans := success?_convertSpans_of_newerVersions made next
  rw [only] at onMetrics onSpans
  -- No table is pruned, so that the steps of each table come one after the other.
  cases kind with
  -- Each table is followed by an empty list of metrics to turn into delta sums.
  | metricNames =>
    intro metric
    rw [onMetrics, VersionDefinition.metricChanges_metricNames, ListedChange.pruned_eq_self,
      List.map_flatMap]
    · -- Each table renames the metric by the name that it has by then.
      exact inOrder_flatMap_inTurn (ListedChange.inOrder_rename_metric metric) declared.flatten old
    · -- No list of changes to metric names has a table for attributes.
      simp
  | pointKeys metrics =>
    -- Each table stands between names and delta sums of which there are none.
    intro metric value covered
    rw [onMetrics, VersionDefinition.metricChanges_pointKeys, ListedChange.pruned_eq_self,
      List.map_flatMap]
    · exact inOrder_flatMap_inTurn (ListedChange.inOrder_pointKeys covered value) declared.flatten
        old
    · simp_all [Scope.isUnscoped, TableKind.isUnscoped]
  | spanKeys spans =>
    intro span value covered
    -- There are no changes to events, so the pass over spans is all.
    obtain ⟨changes, void⟩ := VersionDefinition.spanChanges_spanKeys declared spans
    rw [onSpans, void, changes, ListedChange.pruned_eq_self, List.map_flatMap,
      ListedChange.pruned, List.map_nil, List.append_nil]
    · refine inOrder_flatMap_inTurn ?_ declared.flatten old
      intro table name
      simp [ListedChange.onSpans_withKey covered]
    · simp_all [Scope.isUnscoped, TableKind.isUnscoped]
  | eventNames =>
    intro span event
    -- There are no changes to spans, so the pass over events is all.
    obtain ⟨void, changes⟩ := VersionDefinition.eventChanges_eventNames declared
    rw [onSpans, void, changes, ListedChange.pruned, List.map_nil, List.nil_append,
      ListedChange.pruned_eq_self, List.map_flatMap]
    · refine inOrder_flatMap_inTurn ?_ declared.flatten old
      intro names name
      simp [ListedChange.onEvents_withName]
    · simp
  | eventKeys spans events =>
    intro span event value spanCovered eventCovered
    -- As with event names, the pass over events is all.
    obtain ⟨void, changes⟩ := VersionDefinition.eventChanges_eventKeys declared spans events
    rw [onSpans, void, changes, ListedChange.pruned, List.map_nil, List.nil_append,
      ListedChange.pruned_eq_self, List.map_flatMap]
    · refine inOrder_flatMap_inTurn ?_ declared.flatten old
      intro table name
      simp [ListedChange.onEvents_withKey spanCovered eventCovered]
    · simp_all [Scope.isUnscoped, TableKind.isUnscoped]

end Next

/-- A file that declares one version twice, in different spellings, and gives a key of the same
spans a new name each time. -/
def respelledKeys : SchemaFile :=
  ⟨"1.0.0", "", [
    ("1.0", .ofTables (.spanKeys ["GET"]) [.ofList [("host", "host.name")]]),
    ("1.0.0", .ofTables (.spanKeys ["GET"]) [.ofList [("host", "server.address")]])]⟩

/-- The key gets the name that the first declaration gives it. -/
theorem renames_inTurn_respelledKeys : ∃ schema, ofFile respelledKeys = .ok schema ∧
    (TableKind.spanKeys ["GET"]).Renames schema .zero "host" "host.name" := by
  -- The file is accepted, as both spellings are those of one version.
  obtain ⟨schema, made⟩ : ∃ schema, ofFile respelledKeys = .ok schema :=
    Except.exists_of_isOk (by decide +kernel)
  -- Both declarations are for the version that the first one spells.
  have read : (respelledKeys.newerVersions .zero).map
      (fun version => (version.segments, version.text)) = [([1, 0], "1.0")] := by decide +kernel
  obtain ⟨⟨segments, text⟩, next, ⟨⟩⟩ := List.map_eq_singleton_iff.1 read
  -- The definitions are the two declarations, in the order of the file.
  have only : respelledKeys.definitions ⟨[1, 0], "1.0"⟩ =
      [[.ofList [("host", "host.name")]], [.ofList [("host", "server.address")]]].map
        (.ofTables (.spanKeys ["GET"])) := by rfl
  exact ⟨schema, made, renames_inTurn made next rfl only "host"⟩

/-- The key does not get the name that the last declaration gives it. -/
theorem not_renames_respelledKeys : ∃ schema, ofFile respelledKeys = .ok schema ∧
    ¬ (TableKind.spanKeys ["GET"]).Renames schema .zero "host" "server.address" := by
  obtain ⟨schema, made⟩ : ∃ schema, ofFile respelledKeys = .ok schema :=
    Except.exists_of_isOk (by decide +kernel)
  refine ⟨schema, made, ?_⟩
  intro renames
  let span : Span := ⟨"GET", 0, "", 0, 0, [], [], []⟩
  -- The conversion of one span computes to the name from the first declaration.
  have keys : ((ofFile respelledKeys).toOption.bind fun schema =>
      (schema.convertSpans .zero (span.withKey .absent "host")).success?).map
        (·.map fun span => span.attributes.map (·.key)) = some [["host.name"]] := by
    decide +kernel
  -- Otherwise the other name would be left.
  have converted := renames span .absent rfl
  rw [made, Except.toOption, Option.bind_some, converted, Option.map_some] at keys
  simp [Span.withKey] at keys

end Schema

end SchemaUplift
