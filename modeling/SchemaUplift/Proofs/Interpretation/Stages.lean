import Mathlib.Data.List.TakeDrop
import Mathlib.Data.List.TakeWhile
import SchemaUplift.Proofs.Except
import SchemaUplift.Proofs.Interpretation.Chain
import SchemaUplift.Proofs.Rule.Merging

/-! Stages do what the listed changes to metrics say: passes over single metrics between the splits
and merges come to the changes one after the other. -/

namespace SchemaUplift

/-! ### Rules for single metrics -/

/-- A step on every point of a metric succeeds if it does on all, wherever they stand. -/
theorem Metric.success?_forEachPoint {ρ ε : Type} {step : Nat → Attributes → Attempt ρ ε Attributes}
    {change : Attributes → Option Attributes}
    (each : ∀ index attributes, (step index attributes).success? = change attributes)
    (metric : Metric) : (metric.forEachPoint step).success? = metric.mapAttributes? change := by
  -- Points of both kinds are changed alike.
  have points {α : Type} (points : List (Point α)) :
      (Point.forEach step points).success? = Point.mapAttributes? change points :=
    Attempt.success?_forEach (fun index point => by simp [each]) points
  obtain ⟨name, description, unit, metadata, data⟩ := metric
  -- A metric without data has no points to change.
  cases data with
  | none => rfl
  | some data =>
    cases data <;>
      simp [forEachPoint, mapAttributes?, MetricData.forEachPoint, points, Function.comp_def]

/-- Points keep attributes that are not changed. -/
theorem Metric.mapAttributes?_some (metric : Metric) :
    metric.mapAttributes? some = some metric := by
  -- Points of both kinds are kept.
  have points {α : Type} (points : List (Point α)) :
      Point.mapAttributes? some points = some points := mapM_some points
  obtain ⟨name, description, unit, metadata, data⟩ := metric
  cases data with
  | none => rfl
  | some data => cases data <;> simp [mapAttributes?, points]

namespace MetricRule

/-- What a rule makes of a metric, unless it fails. -/
def effect? : MetricRule → Metric → Option Metric
  | .rename names, metric => some { metric with name := names.effective metric.name }
  | .renameAttributes metrics table, metric =>
    if metrics.covers metric.name then metric.mapAttributes? table.rename? else some metric
  | .toDelta metrics, metric =>
    some (if metrics.contains metric.name then (metric.toDelta 0).value else metric)

/-- A rule succeeds alike on all positions of a metric. -/
theorem success?_convert (rule : MetricRule) (index : Nat) (metric : Metric) :
    (rule.convert index metric).success? = rule.effect? metric := by
  -- Each kind of rule is looked at with its scope.
  cases rule with
  | rename names =>
    rw [MetricRule.convert.eq_def, effect?]
    -- The new name is found in the table, or it is the old one.
    split
    · rfl
    · rename_i absent
      simp_all [appliesTo, RenameTable.effective, Table.contains]
  | renameAttributes metrics table =>
    rw [MetricRule.convert.eq_def, effect?, appliesTo]
    -- Metrics in scope have their attributes renamed, point by point.
    split
    · exact metric.success?_forEachPoint fun point => table.success?_convert _
    · rfl
  | toDelta metrics =>
    rw [MetricRule.convert.eq_def, effect?, appliesTo]
    -- The position in the pass has no part in what the sum becomes.
    split
    · simp only [Metric.toDelta]
      split
      · split <;> rfl
      · rfl
    · rfl

end MetricRule

namespace MetricPass

/-- A pass may apply each rule to all metrics before it goes on to the next rule. -/
theorem success?_convert (pass : MetricPass) (metrics : List Metric) :
    (pass.convert metrics).success? =
      inOrder (pass.rules.map fun rule metrics => metrics.mapM rule.effect?) metrics := by
  -- Each metric is taken through the effects of the rules.
  have each (index : Nat) (metric : Metric) :
      (Attempt.inSequence (pass.rules.map (·.convert index)) metric).success? =
        inOrder (pass.rules.map MetricRule.effect?) metric := by
    simp [Attempt.success?_inSequence, Function.comp_def, MetricRule.success?_convert]
  -- Taking all metrics through the effects one by one comes to the same.
  rw [pass.convert_eq, Attempt.success?_forEach each, mapM_inOrder, List.map_map]
  rfl

end MetricPass

/-! ### Parts and stages -/

namespace MetricPart

/-- What a part makes of a list of metrics, unless it fails. -/
def effect? : MetricPart → List Metric → Option (List Metric)
  | .single rule, metrics => metrics.mapM rule.effect?
  | .split declaration, metrics =>
    (SplitRule.convert ⟨declaration.applyToMetric, declaration.byAttribute,
      declaration.metricsFromAttributes.entries⟩ metrics).success?
  | .merge declaration, metrics =>
    (MergeRule.convert ⟨declaration.createMetric, declaration.byAttribute,
      declaration.attributesForMetrics⟩ metrics).success?

/-- A rename of no attributes changes no metric. -/
theorem effect?_renameAttributes_of_isEmpty (metrics : NameSet) {table : RenameTable}
    (void : table.isEmpty = true) :
    effect? (.single (.renameAttributes metrics table)) = some := by
  -- No metric is changed, in scope or not.
  funext list
  have same : table.rename? = some := funext (RenameTable.rename?_of_isEmpty void)
  have each : MetricRule.effect? (.renameAttributes metrics table) = some := by
    funext metric
    simp [MetricRule.effect?, same, Metric.mapAttributes?_some]
  rw [effect?, each, mapM_some]

/-- A split into no metrics changes no metric. -/
theorem effect?_split_of_isEmpty {declaration : SplitDeclaration}
    (void : declaration.metricsFromAttributes.isEmpty = true) :
    effect? (.split declaration) = some := by
  funext metrics
  -- Without targets no value of any point is taken.
  have none : declaration.metricsFromAttributes.entries = [] := List.isEmpty_iff.1 void
  simp [effect?, SplitRule.convert, SplitRule.selects, SplitRule.targetOf?, positionsWhere, none,
    Metric.anyPoint]

/-- A merge of no metrics changes no metric. -/
theorem effect?_merge_of_isEmpty {declaration : MergeDeclaration}
    (void : declaration.attributesForMetrics.isEmpty = true) :
    effect? (.merge declaration) = some := by
  funext metrics
  -- No name is listed as that of a source.
  have absent : ∀ metric ∈ metrics, MergeRule.isSource ⟨declaration.createMetric,
      declaration.byAttribute, declaration.attributesForMetrics⟩ metric = false :=
    fun metric _ => Table.contains_of_isEmpty void metric.name
  rw [effect?, MergeRule.convert_of_no_source absent]
  rfl

/-- The stage of the rules collected so far is a pass with these rules. -/
theorem inSequence_collected (rules : List MetricRule) :
    Attempt.inSequence ((collected rules).map MetricStage.convert) =
      (MetricPass.mk rules).convert := by
  -- No rules make no stage, and a pass without rules changes nothing.
  funext metrics
  cases rules with
  | nil =>
    rw [MetricPass.convert_eq]
    exact (Attempt.forEach_eq_unchanged fun _ _ _ => rfl).symm
  -- The stage is the only one of its sequence.
  | cons rule rest => exact Attempt.andThen_unchanged _

/-- The stage of the rules collected so far applies them in order. -/
theorem success?_collected (rules : List MetricRule) (metrics : List Metric) :
    (Attempt.inSequence ((collected rules).map MetricStage.convert) metrics).success? =
      inOrder (rules.map fun rule metrics => metrics.mapM rule.effect?) metrics := by
  rw [inSequence_collected, MetricPass.success?_convert]

/-- A part as a stage of its own. -/
def stage : MetricPart → MetricStage
  | .single rule => .pass ⟨[rule]⟩
  | .split declaration => .split ⟨declaration.applyToMetric, declaration.byAttribute,
      declaration.metricsFromAttributes.entries⟩
  | .merge declaration => .merge ⟨declaration.createMetric, declaration.byAttribute,
      declaration.attributesForMetrics⟩

/-- Whether the stages have a place for a part. -/
def isStaged : MetricPart → Bool
  | .single (.renameAttributes _ table) => !table.isEmpty
  | .single _ => true
  | .split declaration => !declaration.metricsFromAttributes.isEmpty
  | .merge declaration => !declaration.attributesForMetrics.isEmpty

/-- What a part makes of metrics is what it does as a stage of its own. -/
theorem success?_convert_stage (part : MetricPart) (metrics : List Metric) :
    (part.stage.convert metrics).success? = part.effect? metrics := by
  cases part with
  | single rule =>
    -- A pass with one rule does what the rule does.
    refine (MetricPass.success?_convert ⟨[rule]⟩ metrics).trans ?_
    simp [effect?]
  | split declaration => rfl
  | merge declaration => rfl

/-- A part for which the stages have no place changes no metric. -/
theorem effect?_of_not_isStaged {part : MetricPart} (idle : part.isStaged = false) :
    part.effect? = some := by
  -- Only parts with an empty table have no place.
  cases part with
  | single rule =>
    cases rule with
    | rename names => simp [isStaged] at idle
    | toDelta names => simp [isStaged] at idle
    | renameAttributes names table =>
      exact effect?_renameAttributes_of_isEmpty names (by simpa [isStaged] using idle)
  | split declaration => exact effect?_split_of_isEmpty (by simpa [isStaged] using idle)
  | merge declaration => exact effect?_merge_of_isEmpty (by simpa [isStaged] using idle)

/-- Stages are made part by part: a rule is collected, a part without a place is passed over, and a
split or a merge ends the stage of the rules collected. -/
theorem stages_induction {version : Version}
    {motive : List MetricRule → List MetricPart → List MetricStage → Prop}
    (nil : ∀ rules, motive rules [] (collected rules))
    (collect : ∀ rules rule rest made, isStaged (.single rule) = true →
      motive (rules ++ [rule]) rest made → motive rules (.single rule :: rest) made)
    (pass : ∀ rules part rest made, isStaged part = false →
      motive rules rest made → motive rules (part :: rest) made)
    (barrier : ∀ rules part rest made, isStaged part = true →
      motive [] rest made → motive rules (part :: rest) (collected rules ++ part.stage :: made))
    {rules : List MetricRule} {parts : List MetricPart} {made : List MetricStage}
    (success : stages version rules parts = .ok made) : motive rules parts made := by
  induction parts generalizing rules made with
  -- The stage of the rules collected so far is the last one.
  | nil =>
    cases success
    exact nil rules
  | cons part rest ih =>
    -- A split or a merge has its two names looked at, and then whether it has anything to do.
    have ends {part : MetricPart} {first second : RequiredName} {given other : String} {void : Bool}
        (placed : part.isStaged = !void)
        (success : (do
          require version first given
          require version second other
          if void then stages version rules rest
          else return collected rules ++ part.stage :: (← stages version [] rest)) = .ok made) :
        motive rules (part :: rest) made := by
      obtain ⟨-, -, success⟩ := Except.exists_of_bind_eq_ok success
      obtain ⟨-, -, success⟩ := Except.exists_of_bind_eq_ok success
      cases void with
      -- The part has nothing to do, and the rules are collected on.
      | true => exact pass rules part rest made placed (ih success)
      | false =>
        -- The part ends the stage of the rules collected, and the others start anew.
        obtain ⟨others, othersMade, success⟩ := Except.exists_of_bind_eq_ok success
        cases success
        exact barrier rules part rest others placed (ih othersMade)
    -- Rules for single metrics are collected, but for those with an empty table.
    cases part with
    | single rule =>
      cases rule with
      | rename names => exact collect rules _ rest made rfl (ih success)
      | toDelta names => exact collect rules _ rest made rfl (ih success)
      | renameAttributes names table =>
        rw [stages] at success
        split at success
        · rename_i void
          exact pass rules _ rest made (by simp [isStaged, void]) (ih success)
        · rename_i filled
          exact collect rules _ rest made (by simp [isStaged, filled]) (ih success)
    | split declaration => exact ends rfl success
    | merge declaration => exact ends rfl success

/-- The stages apply the rules collected so far and then the parts, all in order. -/
theorem success?_stages {version : Version} {rules : List MetricRule} {parts : List MetricPart}
    {made : List MetricStage} (success : stages version rules parts = .ok made)
    (metrics : List Metric) :
    (Attempt.inSequence (made.map MetricStage.convert) metrics).success? =
      inOrder (rules.map (fun rule metrics => metrics.mapM rule.effect?) ++ parts.map effect?)
        metrics := by
  refine stages_induction
    (motive := fun rules parts made => ∀ metrics,
      (Attempt.inSequence (made.map MetricStage.convert) metrics).success? =
        inOrder (rules.map (fun rule metrics => metrics.mapM rule.effect?) ++ parts.map effect?)
          metrics)
    ?nil ?collect ?pass ?barrier success metrics
  case nil =>
    -- The rules collected are all that is left to apply.
    intro rules metrics
    rw [success?_collected, List.map_nil, List.append_nil]
  case collect =>
    -- A rule that is collected stands behind those collected before it.
    intro rules rule rest made _ ih metrics
    rw [ih, List.map_append, List.append_assoc]
    rfl
  case pass =>
    -- A part that changes nothing may be passed over.
    intro rules part rest made idle ih metrics
    rw [ih, inOrder_append, inOrder_append]
    exact congrArg _ (funext fun metrics => by simp [inOrder, effect?_of_not_isStaged idle])
  case barrier =>
    -- The stage of the rules collected comes first, then that of the part, then the others.
    intro rules part rest made _ ih metrics
    rw [List.map_append, Attempt.inSequence_append, Attempt.success?_andThen, success?_collected,
      inOrder_append]
    refine congrArg _ (funext fun metrics => ?_)
    rw [List.map_cons, Attempt.inSequence, Attempt.success?_andThen, success?_convert_stage]
    exact congrArg _ (funext ih)

end MetricPart

/-! ### Listed changes -/

namespace ListedChange

/-- The part of a change to metrics. -/
def metricPart : ListedChange (List String) MetricOperation → MetricPart
  | .attributes names table => .single (.renameAttributes (.ofNames names) table)
  | .other (.rename names) => .single (.rename names)
  | .other (.split declaration) => .split declaration
  | .other (.merge declaration) => .merge declaration
  | .other (.toDelta names) => .single (.toDelta (.ofNames names))

/-- Parts stand for the changes to metrics. -/
theorem standsFor_metricPart : StandsFor metricPart where
  unscoped? names _ := by
    -- A part is unscoped exactly if its change is, with the table of it.
    simp [Prunable.unscoped?, metricPart, NameSet.isEmpty_ofNames, Scope.isUnscoped]
  withTable _ _ _ := rfl
  other change := by cases change <;> rfl

/-- The part of a change to metrics does what the change says. -/
theorem effect?_metricPart (change : ListedChange (List String) MetricOperation) :
    change.metricPart.effect? = change.onMetrics := by
  funext metrics
  cases change with
  | attributes names table =>
    -- The scope of the change is the set of its names.
    refine congrArg (metrics.mapM ·) (funext fun metric => ?_)
    simp only [MetricRule.effect?, NameSet.covers_ofNames, isWithin]
    rfl
  | other operation =>
    -- Operations other than attribute renames never fail on single metrics.
    cases operation with
    | rename names => exact List.mapM_pure
    | split declaration => rfl
    | merge declaration => rfl
    | toDelta names =>
      simp only [metricPart, MetricPart.effect?, onMetrics, ← NameSet.contains_ofNames]
      exact List.mapM_pure

/-- Whether a change is left out where it renames no metrics or turns none into delta sums. -/
def isKept : ListedChange (List String) MetricOperation → Bool
  | .other (.rename names) => !names.isEmpty
  | .other (.toDelta names) => !names.isEmpty
  | _ => true

/-- Changes that are left out change no metric. -/
theorem onMetrics_of_not_isKept {change : ListedChange (List String) MetricOperation}
    (leftOut : change.isKept = false) : change.onMetrics = some := by
  -- Only renames of no metrics and lists of no delta sums are left out.
  rw [← effect?_metricPart]
  cases change with
  | attributes names table => simp [isKept] at leftOut
  | other operation =>
    cases operation with
    | rename names =>
      -- A rename of no metrics keeps every name.
      have idle : MetricRule.effect? (.rename names) = some := by
        have void : names.isEmpty = true := by simpa [isKept] using leftOut
        funext metric
        simp [MetricRule.effect?, RenameTable.effective_of_isEmpty void]
      funext metrics
      rw [metricPart, MetricPart.effect?, idle, mapM_some]
    | toDelta names =>
      have none : names = [] := by simpa [isKept] using leftOut
      -- No metric is among none.
      have idle : MetricRule.effect? (.toDelta (.ofNames names)) = some := by
        funext metric
        simp [MetricRule.effect?, NameSet.contains_ofNames, none]
      funext metrics
      rw [metricPart, MetricPart.effect?, idle, mapM_some]
    | split declaration => simp [isKept] at leftOut
    | merge declaration => simp [isKept] at leftOut

/-- Leaving changes out that are not to attributes leaves the pruning as it was. -/
theorem pruned_filter_isKept (changes : List (ListedChange (List String) MetricOperation)) :
    pruned (changes.filter isKept) = (pruned changes).filter isKept := by
  -- A change that is left out is none to attributes, so it has no part in the pruning.
  induction changes with
  | nil => rfl
  | cons change rest ih =>
    cases change with
    | attributes names table =>
      -- The changes to attributes that come later are the same ones.
      have later (key : String) : renames (rest.filter isKept) key = renames rest key := by
        rw [renames, List.any_filter, renames]
        congr 1
        funext other
        cases other <;> simp [isKept]
      rw [List.filter_cons_of_pos rfl, pruned, pruned]
      simp only [later, ih]
      split <;> rfl
    | other operation =>
      -- A change of another kind is kept or left out alike before and after the pruning.
      cases kept : isKept (.other operation) with
      | true => rw [List.filter_cons_of_pos kept, pruned, pruned, ih, List.filter_cons_of_pos kept]
      | false =>
        rw [List.filter_cons_of_neg (by simp [kept]), pruned,
          List.filter_cons_of_neg (by simp [kept]), ih]

end ListedChange

/-- The tables for all telemetry are not left out. -/
theorem ListedChange.filter_isKept_ofAll (definitions : List VersionDefinition) :
    (ofAll [] definitions).filter isKept = ofAll [] definitions := by
  -- Every change that is listed for all telemetry is one to attributes.
  refine List.filter_eq_self.2 fun change member => ?_
  obtain ⟨declared, -, made⟩ := List.mem_filterMap.1 member
  obtain ⟨table, -, rfl⟩ := Option.map_eq_some_iff.1 made
  rfl

/-- The parts of a declaration are those of the changes that it lists, without those left out. -/
theorem MetricPart.ofChange_eq (change : MetricChange) :
    ofChange change = (change.listed.filter ListedChange.isKept).map ListedChange.metricPart := by
  obtain ⟨names, attributes, division, union, deltas⟩ := change
  -- The fields that may be missing list changes that are always kept.
  have optional {α : Type} (declared : Option α)
      (listed : α → ListedChange (List String) MetricOperation)
      (kept : ∀ item, (listed item).isKept = true) :
      ((declared.map listed).toList.filter ListedChange.isKept).map ListedChange.metricPart =
        (declared.map fun item => (listed item).metricPart).toList := by
    cases declared <;> simp [kept]
  -- The first and the last field list changes that are kept unless they are empty.
  have renamed : ([.other (.rename names)].filter ListedChange.isKept).map
      ListedChange.metricPart = if names.isEmpty then [] else [.single (.rename names)] := by
    cases void : names.isEmpty <;> simp [ListedChange.isKept, void, ListedChange.metricPart]
  have turned : ([.other (.toDelta deltas)].filter ListedChange.isKept).map
      ListedChange.metricPart =
        if deltas.isEmpty then [] else [.single (.toDelta (.ofNames deltas))] := by
    cases void : deltas.isEmpty <;> simp [ListedChange.isKept, void, ListedChange.metricPart]
  simp only [MetricChange.listed, List.filter_append, List.map_append]
  rw [renamed, turned, optional attributes _ fun _ => rfl, optional division _ fun _ => rfl,
    optional union _ fun _ => rfl]
  rfl

/-- The parts of the definitions are those of the listed changes, without those left out. -/
theorem MetricPart.ofDefinitions_eq (definitions : List VersionDefinition) :
    ofDefinitions definitions = ((VersionDefinition.metricChanges definitions).filter
      ListedChange.isKept).map ListedChange.metricPart := by
  have each : ofChange = fun change =>
      (change.listed.filter ListedChange.isKept).map ListedChange.metricPart := funext ofChange_eq
  simp only [ofDefinitions, VersionDefinition.metricChanges, List.filter_append,
    ListedChange.filter_isKept_ofAll, List.map_append, ListedChange.map_ofAll, List.filter_flatMap,
    -- The two lists are compared in their two parts: tables for all telemetry, and declared
    -- changes.
    List.map_flatMap, List.flatMap_assoc, each]
  rfl

/-- A step changes metrics as the changes listed for them say. -/
theorem VersionStep.success?_convertMetrics {version : Version}
    {definitions : List VersionDefinition} {step : VersionStep}
    (made : ofDefinitions version definitions = .ok step) (metrics : List Metric) :
    (step.metrics.convert metrics).success? =
      inOrder ((ListedChange.pruned (VersionDefinition.metricChanges definitions)).map
        ListedChange.onMetrics) metrics := by
  -- The stages are made from the parts of the pruned changes that are kept.
  obtain ⟨stages, staged, rfl⟩ := eq_of_ofDefinitions made
  rw [MetricPart.ofDefinitions_eq, ListedChange.standsFor_metricPart.keepLast_map,
    ListedChange.pruned_filter_isKept] at staged
  rw [MetricPlan.convert, MetricPart.success?_stages staged, List.map_nil, List.nil_append,
    List.map_map]
  -- Each part that is applied does what its change says.
  have agree : MetricPart.effect? ∘ ListedChange.metricPart = ListedChange.onMetrics :=
    funext ListedChange.effect?_metricPart
  rw [agree, inOrder_map_filter fun change _ => ListedChange.onMetrics_of_not_isKept]

end SchemaUplift
