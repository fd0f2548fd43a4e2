import SchemaUplift.Proofs.Interpretation.Compilation
import SchemaUplift.Proofs.Rekeying

/-! Tables for all telemetry mean the same everywhere: attributes are renamed alike on a resource,
on a span, on a span event, on a log record and on a data point. -/

namespace SchemaUplift

/-! ### Sections for all telemetry -/

namespace VersionDefinition

/-- The definition declares no changes but those for all telemetry. -/
def DeclaresOnlyAll (definition : VersionDefinition) : Prop :=
  definition = { empty with all := definition.all }

/-- What the sections for all telemetry of one version make of attributes: their tables rename one
after the other, each without the keys that a later one renames too. -/
def renameAll (definitions : List VersionDefinition) : Attributes → Rekeying :=
  Attempt.inSequence ((Prunable.keepLast (allTables definitions)).map RenameTable.rekey)

/-- The tables for all telemetry that rename something. -/
def neededTables (definitions : List VersionDefinition) : List RenameTable :=
  (Prunable.keepLast (allTables definitions)).filter (!·.isEmpty)

/-- Tables that rename nothing may be left out. -/
theorem renameAll_eq (definitions : List VersionDefinition) :
    renameAll definitions =
      Attempt.inSequence ((neededTables definitions).map RenameTable.rekey) := by
  funext attributes
  -- An empty table leaves all attributes that come up alone.
  exact (Attempt.inSequence_map_filter (fun _ => True)
    (fun table attributes _ void => table.rekey_of_isEmpty (by simpa using void) attributes)
    (fun _ _ _ => trivial) (Prunable.keepLast (allTables definitions)) trivial).symm

end VersionDefinition

namespace SchemaFile

/-- What the sections for all telemetry make of attributes at version `start`, one newer version
after the other. -/
def renameAll (file : SchemaFile) (start : Version) : Attributes → Rekeying :=
  Attempt.inSequence ((file.newerVersions start).map fun version =>
    VersionDefinition.renameAll (file.definitions version))

/-- The definitions of a version are declared in the file. -/
theorem exists_of_mem_definitions {file : SchemaFile} {version : Version}
    {definition : VersionDefinition} (member : definition ∈ file.definitions version) :
    ∃ entry ∈ file.versions, entry.2 = definition := by
  -- A definition comes with a version that was read from the spelling in its entry.
  obtain ⟨declared, kept, rfl⟩ := List.mem_map.1 member
  obtain ⟨entry, inFile, read⟩ := List.mem_filterMap.1 (List.mem_of_mem_filter kept)
  obtain ⟨_, -, rfl⟩ := Option.map_eq_some_iff.1 read
  exact ⟨entry, inFile, rfl⟩

end SchemaFile

/-! ### Rules made from tables -/

/-- Rules that stand for tables without a scope are pruned as the tables are. -/
theorem Prunable.keepLast_map {α : Type} [Prunable α] {toRule : RenameTable → α}
    (unscoped : ∀ table, unscoped? (toRule table) = some table)
    (replaced : ∀ table other, withTable (toRule table) other = toRule other)
    (tables : List RenameTable) :
    keepLast (tables.map toRule) = (keepLast tables).map toRule := by
  -- Tables and rules both stand for the same listed changes.
  have stands : StandsFor fun change : ListedChange Unit Empty => toRule change.table :=
    ⟨fun _ table => unscoped table, fun _ table other => replaced table other,
      fun change => change.elim⟩
  have changes : (tables.map (ListedChange.attributes ())).map
      (ListedChange.table : ListedChange Unit Empty → RenameTable) = tables := by
    rw [List.map_map]
    exact List.map_id _
  calc
    keepLast (tables.map toRule) =
        keepLast ((tables.map (ListedChange.attributes ())).map
          fun change : ListedChange Unit Empty => toRule change.table) := by rw [List.map_map]; rfl
    _ = (keepLast ((tables.map (ListedChange.attributes ())).map
          (ListedChange.table : ListedChange Unit Empty → RenameTable))).map toRule := by
      rw [stands.keepLast_map, ListedChange.standsFor_table.keepLast_map, List.map_map]
      rfl
    _ = (keepLast tables).map toRule := by rw [changes]

/-- Tables for all metrics make one stage, without those that rename nothing. -/
theorem MetricPart.stages_renameAttributes (version : Version) (rules : List MetricRule)
    (tables : List RenameTable) :
    stages version rules (tables.map fun table => .single (.renameAttributes ∅ table)) =
      .ok (collected (rules ++
        (tables.filter (!·.isEmpty)).map (.renameAttributes ∅))) := by
  -- The induction takes the first table to the rules collected, or passes over it.
  induction tables generalizing rules with
  | nil => simp [stages, Pure.pure, Except.pure]
  | cons table rest ih =>
    rw [List.map_cons, stages]
    cases void : table.isEmpty with
    -- The table renames nothing, and makes no rule.
    | true => simp [ih, void]
    -- The table makes one more rule.
    | false => simp [ih, void]

/-- The step that renames attributes of all telemetry by some tables. -/
def VersionStep.ofTables (version : Version) (tables : List RenameTable) : VersionStep where
  version
  resource := tables
  spans := ⟨tables.map (⟨∅, ·⟩), tables.map (.renameAttributes ∅ ∅)⟩
  metrics := ⟨MetricPart.collected (tables.map (.renameAttributes ∅))⟩
  logs := tables

/-- A step made from sections for all telemetry alone renames by their tables. -/
theorem VersionStep.eq_ofTables {version : Version} {step : VersionStep}
    {definitions : List VersionDefinition}
    (onlyAll : ∀ definition ∈ definitions, definition.DeclaresOnlyAll)
    (made : ofDefinitions version definitions = .ok step) :
    step = ofTables version (VersionDefinition.neededTables definitions) := by
  obtain ⟨stages, staged, rfl⟩ := eq_of_ofDefinitions made
  -- Each kind of telemetry has rules for the tables, and its own section adds nothing to them.
  have nothing {α : Type} {listed : VersionDefinition → List α}
      (void : ∀ all, listed { VersionDefinition.empty with all } = []) :
      definitions.flatMap listed = [] :=
    List.flatMap_eq_nil_iff.2 fun definition member => by rw [onlyAll definition member, void]
  -- Tables for resources are those for all telemetry.
  have resource : VersionDefinition.resourceTables definitions =
      VersionDefinition.allTables definitions := by
    rw [VersionDefinition.resourceTables, nothing fun _ => rfl, List.append_nil]
  have logs : VersionDefinition.logTables definitions =
      -- So are tables for log records.
      VersionDefinition.allTables definitions := by
    rw [VersionDefinition.logTables, nothing fun _ => rfl, List.append_nil]
  -- Rules for spans have no names in their scopes.
  have rules : VersionDefinition.spanRules definitions =
      (VersionDefinition.allTables definitions).map (⟨∅, ·⟩) := by
    rw [VersionDefinition.spanRules, nothing fun _ => rfl, List.append_nil]
  -- Rules for events have none either.
  have events : VersionDefinition.eventRules definitions =
      (VersionDefinition.allTables definitions).map (.renameAttributes ∅ ∅) := by
    rw [VersionDefinition.eventRules, nothing fun _ => rfl, List.append_nil]
  -- Parts for metrics are renames of attributes without a scope.
  have parts : MetricPart.ofDefinitions definitions =
      (VersionDefinition.allTables definitions).map
        fun table => .single (.renameAttributes ∅ table) := by
    rw [MetricPart.ofDefinitions, nothing fun _ => rfl, List.append_nil]
  -- The rules are pruned as the tables are, and left out with them.
  rw [parts, Prunable.keepLast_map (fun _ => rfl) (fun _ _ => rfl),
    MetricPart.stages_renameAttributes] at staged
  cases staged
  rw [resource, logs, rules, events, Prunable.keepLast_map (fun _ => rfl) (fun _ _ => rfl),
    Prunable.keepLast_map (fun _ => rfl) (fun _ _ => rfl), List.filter_map, List.filter_map]
  rfl

/-! ### One entity with one list of attributes -/

/-- The scope without names holds every name. -/
theorem NameSet.covers_empty (name : String) : (∅ : NameSet).covers name = true := rfl

/-- A rule for the events of all spans finds nothing to rename where no event has attributes. -/
theorem EventRule.convert_of_bare (span : Span)
    (bare : ∀ event ∈ span.events, event.attributes = []) (table : RenameTable) (index : Nat) :
    (EventRule.renameAttributes ∅ ∅ table).convert index span = .unchanged span := by
  -- An event without attributes has no key to rename.
  have each (place : Nat) : ∀ event ∈ span.events,
      convertAttributes ∅ table (.here (.spanEvent index place)) event = .unchanged event := by
    rintro ⟨name, time, attributes⟩ member
    obtain rfl : attributes = [] := bare _ member
    rfl
  -- The span is in scope, and each of its events is left alone.
  rw [convert, if_pos (NameSet.covers_empty span.name), Attempt.forEach_eq_unchanged each]
  rfl

namespace VersionStep

variable (version : Version) (tables : List RenameTable)

/-- The tables rename the attributes of a resource. -/
theorem renamesAt_resource (resource : Resource) :
    RenamesAt (.here .resource) (fun attributes => { resource with attributes })
      (Attempt.inSequence (tables.map RenameTable.rekey))
      (ofTables version tables).convertResource :=
  .inSequence fun _ _ => .of_table fun _ => rfl

/-- The tables rename the attributes of a single log record. -/
theorem renamesAt_logRecord (record : LogRecord) :
    RenamesAt (.here (.logRecord 0)) (fun attributes => [{ record with attributes }])
      (Attempt.inSequence (tables.map RenameTable.rekey))
      (ofTables version tables).convertLogs :=
  .forEach_singleton (.inSequence fun _ _ => .of_table fun _ => rfl)

/-- The tables rename the attributes of a single span, if its events have none. -/
theorem renamesAt_span {span : Span} (bare : ∀ event ∈ span.events, event.attributes = []) :
    RenamesAt (.here (.span 0)) (fun attributes => [{ span with attributes }])
      (Attempt.inSequence (tables.map RenameTable.rekey))
      (ofTables version tables).spans.convert := by
  -- A pass takes the span through the rules for spans and then through those for events.
  rw [SpanPass.convert_eq, ofTables]
  refine .forEach_singleton (.andThen_idle ?_ fun attributes => ?_)
  · -- The rules for spans rename by the tables, one after the other.
    rw [List.map_map]
    exact .inSequence fun _ _ => .of_table fun _ => rfl
  · -- The events are those of the span, whatever its attributes are by then.
    refine Attempt.inSequence_eq_unchanged ?_
    simp only [List.map_map, List.forall_mem_map]
    intro table _
    exact EventRule.convert_of_bare { span with attributes } bare table 0

/-- The tables rename the attributes of a single event, if its span has none. -/
theorem renamesAt_spanEvent (span : Span) (event : SpanEvent) :
    RenamesAt (.here (.spanEvent 0 0))
      (fun attributes => [{ span with attributes := [], events := [{ event with attributes }] }])
      (Attempt.inSequence (tables.map RenameTable.rekey))
      (ofTables version tables).spans.convert := by
  rw [SpanPass.convert_eq, ofTables]
  refine .forEach_singleton (.idle_andThen ?_ fun attributes => ?_)
  · -- The rules for events rename by the tables, one after the other.
    rw [List.map_map]
    refine .inSequence fun table _ => ?_
    -- A rule goes through the events, of which there is one.
    have renames : RenamesAt (.here (.spanEvent 0 0)) (fun attributes => { event with attributes })
        table.rekey (EventRule.convertAttributes ∅ table (.here (.spanEvent 0 0))) :=
      .of_table fun attributes => rfl
    have all : RenamesAt (.here (.spanEvent 0 0)) (fun attributes => [{ event with attributes }])
        table.rekey (Attempt.forEach fun place =>
          EventRule.convertAttributes ∅ table (.here (.spanEvent 0 place))) :=
      renames.forEach_singleton
    refine all.map (fun events => { span with attributes := [], events }) fun attributes => ?_
    rw [Function.comp_apply, EventRule.convert, if_pos (NameSet.covers_empty _)]
  · -- The rules for spans find no attributes to rename.
    refine Attempt.inSequence_eq_unchanged ?_
    simp only [List.map_map, List.forall_mem_map]
    exact fun _ _ => rfl

/-- The tables rename the attributes of a single data point. The data holds points of either kind:
`walks` says that `build` makes data of points without doing anything to them. -/
theorem renamesAt_dataPoint {ρ : Type} (metric : Metric) (point : Point ρ)
    {build : List (Point ρ) → MetricData}
    (walks : ∀ (step : Nat → Attributes → Conversion Attributes) (points : List (Point ρ)),
      (build points).forEachPoint step = (Point.forEach step points).map build) :
    RenamesAt (.here (.dataPoint 0 0))
      (fun attributes => [{ metric with data := some (build [{ point with attributes }]) }])
      (Attempt.inSequence (tables.map RenameTable.rekey))
      (ofTables version tables).metrics.convert := by
  -- The tables make a single pass over metrics.
  have pass : (ofTables version tables).metrics.convert =
      (MetricPass.mk (tables.map (.renameAttributes ∅))).convert :=
    MetricPart.inSequence_collected _
  -- The pass takes the metric through one rule for each table.
  rw [pass, MetricPass.convert_eq]
  refine .forEach_singleton ?_
  rw [List.map_map]
  refine .inSequence fun table _ => ?_
  -- A rule goes through the points, of which there is one.
  have renames : RenamesAt (.here (.dataPoint 0 0)) (fun attributes => { point with attributes })
      table.rekey (fun point : Point ρ =>
        (table.convert (.here (.dataPoint 0 0)) point.attributes).map
          fun attributes => { point with attributes }) :=
    .of_table fun attributes => rfl
  have all : RenamesAt (.here (.dataPoint 0 0)) (fun attributes => [{ point with attributes }])
      table.rekey (Point.forEach fun place => table.convert (.here (.dataPoint 0 place))) :=
    renames.forEach_singleton
  -- The points are those of the data, and the data that of the metric.
  refine all.map (fun points => { metric with data := some (build points) }) fun attributes => ?_
  rw [Function.comp_apply, MetricRule.convert, MetricRule.appliesTo,
    if_pos (NameSet.covers_empty _)]
  simp only [Metric.renameAttributes, Metric.forEachPoint, walks]
  rfl

end VersionStep

/-! ### From version to version -/

namespace Schema

variable {file : SchemaFile} {schema : Schema} (made : ofFile file = .ok schema)
  (onlyAll : ∀ entry ∈ file.versions, entry.2.DeclaresOnlyAll)

include made onlyAll

/-- What renames in one place at every step does so from version to version, if the file declares
no changes but those for all telemetry. -/
theorem renamesAt_pending {β : Type} {address : Address} {whole : Attributes → β}
    {pass : VersionStep → β → Conversion β}
    (each : ∀ version tables, RenamesAt address whole
      (Attempt.inSequence (tables.map RenameTable.rekey)) (pass (.ofTables version tables)))
    (start : Version) :
    RenamesAt address whole (file.renameAll start)
      (Attempt.inSequence ((schema.pending start).map pass)) := by
  -- The newer versions are those of the pending steps, in the same order.
  rw [SchemaFile.renameAll, newerVersions_eq made, List.map_map]
  refine .inSequence fun step member => ?_
  -- Each pending step is made from definitions in the file.
  have sections : ∀ definition ∈ file.definitions step.version, definition.DeclaresOnlyAll := by
    intro definition declared
    obtain ⟨entry, inFile, rfl⟩ := SchemaFile.exists_of_mem_definitions declared
    exact onlyAll entry inFile
  -- The step renames by the tables that are needed.
  have shape := VersionStep.eq_ofTables sections (ofDefinitions_of_mem_pending made member)
  have renames := each step.version
    (VersionDefinition.neededTables (file.definitions step.version))
  rw [← shape, ← VersionDefinition.renameAll_eq] at renames
  exact renames

/-- The sections for all telemetry mean the same for every kind of telemetry. If a file declares no
other changes, a conversion does to the attributes of a resource, of a single span, of a single
event of a span without attributes, of a single log record and of the single data point of a metric
what the tables of these sections do to attributes on their own: the attributes come out the same,
also after a failure, which then is a conflict on the same key, and the records differ in nothing
but the address. -/
theorem renamesAt_convert (start : Version) :
    (∀ resource : Resource,
      RenamesAt (.here .resource) (fun attributes => { resource with attributes })
        (file.renameAll start) (schema.convertResource start)) ∧
    (∀ span : Span, (∀ event ∈ span.events, event.attributes = []) →
      RenamesAt (.here (.span 0)) (fun attributes => [{ span with attributes }])
        (file.renameAll start) (schema.convertSpans start)) ∧
    (∀ (span : Span) (event : SpanEvent),
      RenamesAt (.here (.spanEvent 0 0))
        (fun attributes => [{ span with attributes := [], events := [{ event with attributes }] }])
        (file.renameAll start) (schema.convertSpans start)) ∧
    (∀ record : LogRecord,
      RenamesAt (.here (.logRecord 0)) (fun attributes => [{ record with attributes }])
        (file.renameAll start) (schema.convertLogs start)) ∧
    (∀ (metric : Metric) (kind : NumberKind) (point : NumberPoint),
      RenamesAt (.here (.dataPoint 0 0))
        (fun attributes =>
          [{ metric with data := some (.numbers kind [{ point with attributes }]) }])
        (file.renameAll start) (schema.convertMetrics start)) ∧
    ∀ (metric : Metric) (kind : DistributionKind) (point : DistributionPoint),
      RenamesAt (.here (.dataPoint 0 0))
        (fun attributes =>
          [{ metric with data := some (.distributions kind [{ point with attributes }]) }])
        (file.renameAll start) (schema.convertMetrics start) := by
  -- Each kind of telemetry takes one pass for each pending step.
  rw [convertSpans_eq, convertLogs_eq, convertMetrics_eq]
  refine ⟨fun resource => ?_, fun span bare => ?_, fun span event => ?_, fun record => ?_,
    fun metric kind point => ?_, fun metric kind point => ?_⟩
  · -- A resource is one entity with one list of attributes.
    exact renamesAt_pending made onlyAll
      (fun version tables => VersionStep.renamesAt_resource version tables resource) start
  · exact renamesAt_pending made onlyAll
      (fun version tables => VersionStep.renamesAt_span version tables bare) start
  · exact renamesAt_pending made onlyAll
      (fun version tables => VersionStep.renamesAt_spanEvent version tables span event) start
  · -- Records are taken one by one.
    exact renamesAt_pending made onlyAll
      (fun version tables => VersionStep.renamesAt_logRecord version tables record) start
  · exact renamesAt_pending made onlyAll
      (fun version tables =>
        VersionStep.renamesAt_dataPoint version tables metric point fun _ _ => rfl) start
  · exact renamesAt_pending made onlyAll
      (fun version tables =>
        VersionStep.renamesAt_dataPoint version tables metric point fun _ _ => rfl) start

omit made onlyAll

/-- A file that declares one version twice, with tables that meet one key after the other: `b`
becomes `a`, then `c`, and then `d`. The first table does not get to rename `a`, as the second one
does. -/
def chainedTables : SchemaFile :=
  ⟨"1.0.0", "https://opentelemetry.io/schemas/1.1.0",
    [("1.1.0", { VersionDefinition.empty with
        all := [some (.ofList [("a", "b"), ("b", "a")]), none, some (.ofList [("a", "c")])] }),
      ("1.1", { VersionDefinition.empty with all := [some (.ofList [("c", "d")])] })]⟩

/-- Attributes of which the first one is about to get the key of the second one. -/
def clashing : Attributes := [⟨"b", .string "x"⟩, ⟨"d", .string "y"⟩]

/-- Three tables rename a key before the last of them meets a conflict, on a span with an event, on
an event of a span and on a data point alike. -/
theorem renamesAt_convert_chainedTables : ∃ schema, ofFile chainedTables = .ok schema ∧
    (chainedTables.renameAll .zero clashing).records = [[(0, "b")], [(0, "a")], [(0, "c")]] ∧
    (chainedTables.renameAll .zero clashing).failure = some "d" ∧
    schema.convertSpans .zero [⟨"s", 0, "", 0, 1, clashing, [⟨"e", 0, []⟩], []⟩] =
      (chainedTables.renameAll .zero clashing).placed (.here (.span 0))
        (fun attributes => [⟨"s", 0, "", 0, 1, attributes, [⟨"e", 0, []⟩], []⟩]) ∧
    schema.convertSpans .zero [⟨"s", 0, "", 0, 1, [], [⟨"e", 0, clashing⟩], []⟩] =
      (chainedTables.renameAll .zero clashing).placed (.here (.spanEvent 0 0))
        (fun attributes => [⟨"s", 0, "", 0, 1, [], [⟨"e", 0, attributes⟩], []⟩]) ∧
    schema.convertMetrics .zero
        [⟨"m", "", "", [], some (.distributions .summary [⟨clashing, 0, 1, 0, 5⟩])⟩] =
      (chainedTables.renameAll .zero clashing).placed (.here (.dataPoint 0 0))
        fun attributes =>
          [⟨"m", "", "", [], some (.distributions .summary [⟨attributes, 0, 1, 0, 5⟩])⟩] := by
  -- The file is accepted, as each of its versions is well spelled.
  obtain ⟨schema, made⟩ : ∃ schema, ofFile chainedTables = .ok schema :=
    Except.exists_of_isOk (by decide +kernel)
  have onlyAll : ∀ entry ∈ chainedTables.versions, entry.2.DeclaresOnlyAll := by
    simp [chainedTables, VersionDefinition.DeclaresOnlyAll]
  have bare : ∀ event ∈ [(⟨"e", 0, []⟩ : SpanEvent)], event.attributes = [] := by simp
  -- The statement is about each kind of telemetry, of which three are looked at.
  obtain ⟨-, spans, events, -, -, points⟩ := renamesAt_convert made onlyAll .zero
  exact ⟨schema, made, by decide +kernel, by decide +kernel,
    spans ⟨"s", 0, "", 0, 1, [], [⟨"e", 0, []⟩], []⟩ bare clashing,
    events ⟨"s", 0, "", 0, 1, [], [], []⟩ ⟨"e", 0, []⟩ clashing,
    points ⟨"m", "", "", [], none⟩ .summary ⟨[], 0, 1, 0, 5⟩ clashing⟩

end Schema

end SchemaUplift
