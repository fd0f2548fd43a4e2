import SchemaUplift.Schema.Basic
import SchemaUplift.Schema.MetricPart

/-! Declared schemas made ready for use. The declarations of one version count as one, in the order
of the file. -/

namespace SchemaUplift

namespace VersionStep

/-- The step of a version from all its definitions. -/
def ofDefinitions (version : Version) (definitions : List VersionDefinition) :
    Except SchemaError VersionStep := do
  let stages ← MetricPart.stages version []
    (Prunable.keepLast (MetricPart.ofDefinitions definitions))
  return {
    version
    resource := (Prunable.keepLast (VersionDefinition.resourceTables definitions)).filter
      (!·.isEmpty)
    spans := {
      rules := (Prunable.keepLast (VersionDefinition.spanRules definitions)).filter
        (!·.table.isEmpty)
      events := (Prunable.keepLast (VersionDefinition.eventRules definitions)).filter
        (!·.isVoid) }
    metrics := ⟨stages⟩
    logs := (Prunable.keepLast (VersionDefinition.logTables definitions)).filter (!·.isEmpty) }

end VersionStep

namespace SchemaFile

/-- Reads the version of each declaration; the first misspelled one is reported. -/
def readVersions : List (String × VersionDefinition) →
    Except SchemaError (List (Version × VersionDefinition))
  | [] => return []
  | (text, definition) :: rest =>
    match Version.read text with
    | .ok version => return (version, definition) :: (← readVersions rest)
    | .error cause => throw (.invalidVersion text cause)

/-- Adds a definition to those of an equal version, or as the first of a new one. -/
def addDefinition (version : Version) (definition : VersionDefinition) :
    List (Version × List VersionDefinition) → List (Version × List VersionDefinition)
  | [] => [(version, [definition])]
  | (first, definitions) :: rest =>
    if first == version then (first, definitions ++ [definition]) :: rest
    else (first, definitions) :: addDefinition version definition rest

/-- The definitions by version, in the order of the first declarations, under their spelling. -/
def groupVersions (declared : List (Version × VersionDefinition)) :
    List (Version × List VersionDefinition) :=
  declared.foldl (fun groups entry => addDefinition entry.1 entry.2 groups) []

end SchemaFile

namespace Schema

/-- Makes a declared schema ready for use. All versions are read before any change is looked at. -/
def ofFile (file : SchemaFile) : Except SchemaError Schema := do
  let declared ← SchemaFile.readVersions file.versions
  let steps ← (SchemaFile.groupVersions declared).mapM fun group =>
    VersionStep.ofDefinitions group.1 group.2
  return ofVersions steps (if file.schemaUrl.isEmpty then none else some file.schemaUrl)

end Schema

end SchemaUplift
