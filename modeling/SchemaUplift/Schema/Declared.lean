import SchemaUplift.Schema.Pruning
import SchemaUplift.SchemaFile.Basic

/-! The rules that the definitions of one version stand for, by kind of telemetry. -/

namespace SchemaUplift

/-- The rules that one declared change to events stands for. -/
def EventChange.rules (change : EventChange) : List EventRule :=
  (change.renameEvents.map EventRule.renameEvents).toList ++
    (change.renameAttributes.map fun rename => EventRule.renameAttributes
      (.ofNames rename.applyToSpans) (.ofNames rename.applyToEvents) rename.attributeMap).toList

/-- Whether an event rule renames nothing. -/
def EventRule.isVoid : EventRule → Bool
  | .renameEvents names => names.isEmpty
  | .renameAttributes _ _ table => table.isEmpty

namespace VersionDefinition

/-! ### Tables and rules of several definitions of one version -/

/-- The tables for all telemetry. -/
def allTables (definitions : List VersionDefinition) : List RenameTable :=
  definitions.flatMap fun definition => definition.all.filterMap id

/-- The tables for resources, those for all telemetry first. -/
def resourceTables (definitions : List VersionDefinition) : List RenameTable :=
  allTables definitions ++ definitions.flatMap fun definition => definition.resources.filterMap id

/-- The tables for log records, those for all telemetry first. -/
def logTables (definitions : List VersionDefinition) : List RenameTable :=
  allTables definitions ++ definitions.flatMap fun definition => definition.logs.filterMap id

/-- The rules for spans, those for all telemetry first. -/
def spanRules (definitions : List VersionDefinition) : List SpanRule :=
  (allTables definitions).map (⟨∅, ·⟩) ++ definitions.flatMap fun definition =>
    definition.spans.filterMap <| Option.map fun rename =>
      ⟨.ofNames rename.applyToSpans, rename.attributeMap⟩

/-- The rules for span events, those for all telemetry first. -/
def eventRules (definitions : List VersionDefinition) : List EventRule :=
  (allTables definitions).map (.renameAttributes ∅ ∅) ++ definitions.flatMap fun definition =>
    definition.spanEvents.flatMap EventChange.rules

end VersionDefinition

end SchemaUplift
