import SchemaUplift.Version

/-! Why a declared schema cannot be used. -/

namespace SchemaUplift

/-- A name that a split or a merge must give. -/
inductive RequiredName where
  /-- The metric that a split applies to. -/
  | splitMetric
  /-- The attribute that a split goes by. -/
  | splitAttribute
  /-- The metric that a merge creates. -/
  | mergeMetric
  /-- The attribute that a merge adds. -/
  | mergeAttribute
deriving DecidableEq, Repr

/-- The words for the change that lacks a name. -/
def RequiredName.change : RequiredName → String
  | .splitMetric | .splitAttribute => "split"
  | .mergeMetric | .mergeAttribute => "merge"

/-- The field of the schema file that gives a name. -/
def RequiredName.field : RequiredName → String
  | .splitMetric => "apply_to_metric"
  | .mergeMetric => "create_metric"
  | .splitAttribute | .mergeAttribute => "by_attribute"

/-- Why a declared schema cannot be used. -/
inductive SchemaError where
  /-- A version is misspelled. -/
  | invalidVersion (text : String) (cause : VersionError)
  /-- A split or a merge lacks a name. -/
  | incompleteChange (version : String) (lacking : RequiredName)
deriving DecidableEq, Repr

/-- The message for a schema that cannot be used. -/
def SchemaError.message : SchemaError → String
  | .invalidVersion text cause => s!"invalid version {Text.quoted text}: {cause.message}"
  | .incompleteChange version lacking =>
    s!"incomplete {lacking.change} in version {version}: {lacking.field} is empty"

end SchemaUplift
