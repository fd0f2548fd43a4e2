import SchemaUplift.Telemetry.Metric

/-! Why a conversion stops. -/

namespace SchemaUplift

/-- Why two metrics cannot be merged. -/
inductive MergeObstacle where
  /-- The first source and another one hold data of different kinds. -/
  | kinds (first : String) (firstKind : DataKind) (other : String) (otherKind : DataKind)
  /-- Points of different kinds met while the sources were put together. -/
  | mixedPoints
deriving DecidableEq, Repr

/-- The words of the message for an obstacle. -/
def MergeObstacle.message : MergeObstacle → String
  | .kinds first firstKind other otherKind =>
    s!"{first} holds {firstKind.name} data but {other} holds {otherKind.name} data"
  | .mixedPoints => "mixed data kinds"

/-- Why a conversion stopped. -/
inductive ConversionError where
  /-- Two attributes of one entity would share the key. -/
  | conflict (key : String)
  /-- The sources of a merge into the metric do not fit together. -/
  | incompatibleMerge (metric : String) (obstacle : MergeObstacle)
deriving DecidableEq, Repr

/-- The message for a stopped conversion. -/
def ConversionError.message : ConversionError → String
  | .conflict key => s!"attribute {key} conflicts"
  | .incompatibleMerge metric obstacle =>
    s!"cannot merge into metric {metric}: {obstacle.message}"

end SchemaUplift
