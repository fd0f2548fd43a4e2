import SchemaUplift.Rule.MetricPlan
import SchemaUplift.Schema.Declared
import SchemaUplift.Schema.Error

/-! Declared changes to metrics taken apart and put together into stages. -/

namespace SchemaUplift

/-- One part of a declared change to metrics. -/
inductive MetricPart where
  /-- A rule for single metrics. -/
  | single (rule : MetricRule)
  /-- A split. -/
  | split (declaration : SplitDeclaration)
  /-- A merge. -/
  | merge (declaration : MergeDeclaration)

namespace MetricPart

instance : Prunable MetricPart where
  unscoped?
    | .single rule => Prunable.unscoped? rule
    | _ => none
  withTable
    | .single rule, table => .single (Prunable.withTable rule table)
    | part, _ => part

/-- The parts of a declared change, in the order in which they take effect. -/
def ofChange (change : MetricChange) : List MetricPart :=
  (if change.renameMetrics.isEmpty then [] else [.single (.rename change.renameMetrics)]) ++
  (change.renameAttributes.map fun rename => MetricPart.single
    (.renameAttributes (.ofNames rename.applyToMetrics) rename.attributeMap)).toList ++
  (change.split.map MetricPart.split).toList ++
  (change.merge.map MetricPart.merge).toList ++
  (if change.toDelta.isEmpty then [] else [.single (.toDelta (.ofNames change.toDelta))])

/-- The parts of the changes to metrics, those for all telemetry first. -/
def ofDefinitions (definitions : List VersionDefinition) : List MetricPart :=
  (VersionDefinition.allTables definitions).map
      (fun table => .single (.renameAttributes ∅ table)) ++
    definitions.flatMap fun definition => definition.metrics.flatMap ofChange

/-- The stage of the rules collected so far; no rules make no stage. -/
def collected (rules : List MetricRule) : List MetricStage :=
  if rules.isEmpty then [] else [.pass ⟨rules⟩]

/-- Refuses an empty name. -/
def require (version : Version) (lacking : RequiredName) (name : String) :
    Except SchemaError Unit :=
  if name.isEmpty then throw (.incompleteChange version.text lacking) else return ()

/-- The stages of the parts, after the rules collected so far: rules gather until a split or a
merge comes. A rename of no attributes, a split into no metrics and a merge of no metrics are
left out, but not before their names are checked. -/
def stages (version : Version) (rules : List MetricRule) :
    List MetricPart → Except SchemaError (List MetricStage)
  | [] => return collected rules
  | .single (.renameAttributes metrics table) :: rest =>
    if table.isEmpty then stages version rules rest
    else stages version (rules ++ [.renameAttributes metrics table]) rest
  | .single rule :: rest => stages version (rules ++ [rule]) rest
  | .split declaration :: rest => do
    require version .splitMetric declaration.applyToMetric
    require version .splitAttribute declaration.byAttribute
    if declaration.metricsFromAttributes.isEmpty then stages version rules rest
    else
      let rule := .split ⟨declaration.applyToMetric, declaration.byAttribute,
        declaration.metricsFromAttributes.entries⟩
      return collected rules ++ rule :: (← stages version [] rest)
  | .merge declaration :: rest => do
    require version .mergeMetric declaration.createMetric
    require version .mergeAttribute declaration.byAttribute
    if declaration.attributesForMetrics.isEmpty then stages version rules rest
    else
      let rule := .merge ⟨declaration.createMetric, declaration.byAttribute,
        declaration.attributesForMetrics⟩
      return collected rules ++ rule :: (← stages version [] rest)

end MetricPart

end SchemaUplift
