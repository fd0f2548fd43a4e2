import SchemaUplift.SchemaFile.Basic
import SchemaUplift.Yaml.Document
import SchemaUplift.Yaml.Resolution

/-! Schema files read from documents. A record is a mapping with known keys, each given once at
most; other keys are passed over, and what is left out is empty. -/

namespace SchemaUplift.Yaml.Node

/-! ### Records and tables -/

/-- Reads a node that may stand for nothing. -/
def optional? {α : Type} (read? : Node → Option α) (node : Node) : Option (Option α) :=
  if node.isNull then some none else (read? node).map some

/-- Reads each item of a sequence. -/
def listOf? {α : Type} (read? : Node → Option α) (node : Node) : Option (List α) := do
  (← node.items?).mapM read?

/-- Reads each entry of a mapping, with keys and values read alike. -/
def pairsOf? {α : Type} (read? : Node → Option α) (node : Node) : Option (List (α × α)) := do
  (← node.entries?).mapM fun (key, value) => return (← read? key, ← read? value)

/-- Reads a table of texts; the last entry for a key wins. -/
def table? (read? : Node → Option String) (node : Node) : Option (Table String) :=
  (node.pairsOf? read?).map .ofList

end SchemaUplift.Yaml.Node

namespace SchemaUplift

open Yaml

/-- The known fields of a record, with their nodes. -/
abbrev Fields := List (String × Node)

namespace Fields

/-- The fields of a record whose keys the function maps to the names of known fields. Two keys for
one field are refused. -/
def ofNode? (known? : String → Option String) (node : Node) : Option Fields := do
  let keyed ← (← node.entries?).mapM fun (key, value) => return (← key.text?, value)
  let fields := keyed.filterMap fun (key, value) => (known? key).map fun name => (name, value)
  if (fields.map (·.1)).Nodup then some fields else none

/-- The fields of a record with the given names. -/
def named? (names : List String) (node : Node) : Option Fields :=
  ofNode? (fun key => if names.contains key then some key else none) node

/-- Reads a field; one that is left out has the given value. -/
def read? {α : Type} (fields : Fields) (name : String) (absent : α) (read? : Node → Option α) :
    Option α :=
  match fields.lookup name with
  | some node => read? node
  | none => some absent

/-- Reads a text; one that is left out is empty. -/
def text? (fields : Fields) (name : String) : Option String := fields.read? name "" Node.text?

/-- Reads a list of texts; one that is left out is empty. -/
def texts? (fields : Fields) (name : String) : Option (List String) :=
  fields.read? name [] (Node.listOf? Node.text?)

/-- Reads a table; one that is left out is empty. -/
def table? (fields : Fields) (name : String) : Option (Table String) :=
  fields.read? name ∅ (Node.table? Node.text?)

end Fields

/-! ### Renames of attributes everywhere -/

/-- The deepest nesting of collections in a document. -/
def nestingLimit : Nat := 128

/-- The number of collections around a rename of attributes: the file, its versions, a version, a
section, its changes and a change. -/
def nestingAround : Nat := 6

/-- The key of a wrapped table. An integer that is not negative stands for the field with its
number, of which there is only the first; further fields are passed over. -/
def wrappedKey? (key : Node) : Option String :=
  match key with
  | .scalar text true =>
    match Meaning.ofPlain text with
    | .integer value =>
      if text.startsWith "-" then none else some (if value = 0 then "attribute_map" else "")
    | .text => some text
    | _ => none
  | .scalar text false => some text
  | _ => none

/-- Reads a table of renames that is the only known field of a record. -/
def wrappedTable? (entries : List (Node × Node)) : Option RenameTable := do
  let keyed ← entries.mapM fun (key, value) => return (← wrappedKey? key, value)
  match keyed.filter (·.1 == "attribute_map") with
  | [(_, value)] => match value with
    | .mapping _ => value.table? Node.string?
    | _ => none
  | _ => none

/-- Reads a table of renames, wrapped in a record or bare. Its keys and values have to stand for
texts. -/
def attributeTable? (node : Node) : Option RenameTable :=
  match node with
  | .mapping entries =>
    if node.fits (nestingLimit - nestingAround) then
      wrappedTable? entries <|> node.table? Node.string?
    else none
  | _ => none

/-! ### Changes -/

/-- Reads a table of renames in a record. -/
def mappedTable? (node : Node) : Option RenameTable := do
  (← Fields.named? ["attribute_map"] node).table? "attribute_map"

/-- Reads a rename of span attributes. -/
def SpanAttributeRename.ofNode? (node : Node) : Option SpanAttributeRename := do
  let fields ← Fields.named? ["attribute_map", "apply_to_spans"] node
  return ⟨← fields.table? "attribute_map", ← fields.texts? "apply_to_spans"⟩

/-- Reads a rename of event attributes. -/
def EventAttributeRename.ofNode? (node : Node) : Option EventAttributeRename := do
  let fields ← Fields.named? ["apply_to_spans", "apply_to_events", "attribute_map"] node
  return ⟨← fields.texts? "apply_to_spans", ← fields.texts? "apply_to_events",
    ← fields.table? "attribute_map"⟩

/-- Reads a change to span events. -/
def EventChange.ofNode? (node : Node) : Option EventChange := do
  let fields ← Fields.named? ["rename_events", "rename_attributes"] node
  let names? (node : Node) : Option RenameTable := do
    (← Fields.named? ["name_map"] node).table? "name_map"
  return ⟨← fields.read? "rename_events" none (Node.optional? names?),
    ← fields.read? "rename_attributes" none (Node.optional? EventAttributeRename.ofNode?)⟩

/-- Reads a rename of data point attributes, whose table has two names. -/
def MetricAttributeRename.ofNode? (node : Node) : Option MetricAttributeRename := do
  let fields ← Fields.ofNode? (fun
    | "apply_to_metrics" => some "apply_to_metrics"
    | "attribute_map" | "label_map" => some "attribute_map"
    | _ => none) node
  return ⟨← fields.texts? "apply_to_metrics", ← fields.table? "attribute_map"⟩

/-- Reads the declaration of a split. -/
def SplitDeclaration.ofNode? (node : Node) : Option SplitDeclaration := do
  let fields ←
    Fields.named? ["apply_to_metric", "by_attribute", "metrics_from_attributes"] node
  return ⟨← fields.text? "apply_to_metric", ← fields.text? "by_attribute",
    ← fields.table? "metrics_from_attributes"⟩

/-- Reads the declaration of a merge. -/
def MergeDeclaration.ofNode? (node : Node) : Option MergeDeclaration := do
  let fields ← Fields.named? ["create_metric", "by_attribute", "attributes_for_metrics"] node
  return ⟨← fields.text? "create_metric", ← fields.text? "by_attribute",
    ← fields.table? "attributes_for_metrics"⟩

/-- Reads a change to metrics. -/
def MetricChange.ofNode? (node : Node) : Option MetricChange := do
  let fields ←
    Fields.named? ["rename_metrics", "rename_attributes", "split", "merge", "to_delta"] node
  return {
    renameMetrics := ← fields.table? "rename_metrics"
    renameAttributes :=
      ← fields.read? "rename_attributes" none (Node.optional? MetricAttributeRename.ofNode?)
    split := ← fields.read? "split" none (Node.optional? SplitDeclaration.ofNode?)
    merge := ← fields.read? "merge" none (Node.optional? MergeDeclaration.ofNode?)
    toDelta := ← fields.texts? "to_delta" }

/-! ### Versions -/

/-- Reads the changes of a section. -/
def readSection? {α : Type} (read? : Node → Option α) (node : Node) : Option (List α) := do
  let fields ← Fields.named? ["changes"] node
  fields.read? "changes" [] (Node.listOf? read?)

/-- Reads a change whose only field is a rename of attributes. -/
def readRename? {α : Type} (read? : Node → Option α) (node : Node) : Option (Option α) := do
  let fields ← Fields.named? ["rename_attributes"] node
  fields.read? "rename_attributes" none (Node.optional? read?)

/-- Reads the definition of a version. -/
def VersionDefinition.ofNode? (node : Node) : Option VersionDefinition := do
  let fields ←
    Fields.named? ["all", "resources", "spans", "span_events", "metrics", "logs"] node
  let part {α : Type} (name : String) (read? : Node → Option α) : Option (List α) :=
    fields.read? name [] (readSection? read?)
  return {
    all := ← part "all" (readRename? attributeTable?)
    resources := ← part "resources" (readRename? attributeTable?)
    spans := ← part "spans" (readRename? SpanAttributeRename.ofNode?)
    spanEvents := ← part "span_events" EventChange.ofNode?
    metrics := ← part "metrics" MetricChange.ofNode?
    logs := ← part "logs" (readRename? mappedTable?) }

namespace SchemaFile

/-- Reads versions with their definitions; a version may stand without one. -/
def versionsOf? (node : Node) : Option (List (String × VersionDefinition)) := do
  (← node.entries?).mapM fun (name, definition) => do
    let definition? ← definition.optional? VersionDefinition.ofNode?
    return (← name.text?, definition?.getD .empty)

/-- Reads a schema file from a document. -/
def ofNode? (node : Node) : Option SchemaFile := do
  let fields ← Fields.named? ["file_format", "schema_url", "versions"] node
  return ⟨← fields.text? "file_format", ← fields.text? "schema_url",
    ← fields.read? "versions" [] versionsOf?⟩

/-- Reads a schema file from text, if it is well formed. -/
def read? (text : String) : Option SchemaFile := (Yaml.document? text).bind ofNode?

end SchemaFile

end SchemaUplift
