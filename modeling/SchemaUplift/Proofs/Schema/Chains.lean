import SchemaUplift.Proofs.Interpretation.Stages

/-! What the chains of a version hold: the listed changes in their order, where unscoped tables keep
only the last rename of each key, without the changes of which nothing is left. -/

namespace SchemaUplift

/-! ### Pruned changes -/

namespace ListedChange

variable {σ β : Type}

section Pruning

variable [Scope σ]

/-- The table of a change to attributes that has no scope. -/
def unscoped? : ListedChange σ β → Option RenameTable
  | .attributes scope table => if Scope.isUnscoped scope then some table else none
  | .other _ => none

/-- A change apart from what its table holds, if that is an unscoped one. -/
def apartFromTable : ListedChange σ β → ListedChange σ β
  | .attributes scope table => .attributes scope (if Scope.isUnscoped scope then ∅ else table)
  | .other change => .other change

/-- Changes are pruned: the unscoped tables against each other alone, and nothing else changes. -/
structure PrunesTo (changes kept : List (ListedChange σ β)) : Prop where
  /-- What is left of the unscoped tables are the last renames of their keys. -/
  unscoped : RenameTable.KeepsLast (changes.filterMap unscoped?) (kept.filterMap unscoped?)
  /-- All other changes are at their places with all that they hold. -/
  others : kept.map apartFromTable = changes.map apartFromTable

/-- A key is renamed by changes if their unscoped tables, taken out, rename it. -/
theorem renames_eq (changes : List (ListedChange σ β)) (key : String) :
    renames changes key = Prunable.renames (changes.filterMap unscoped?) key := by
  -- The induction takes the first change out of both sides.
  induction changes with
  | nil => rfl
  | cons change rest ih =>
    simp only [renames, Prunable.renames, Prunable.unscoped?, List.filterMap_some] at ih ⊢
    rw [List.any_cons, ih, List.filterMap_cons]
    -- The first change adds its table, if it is an unscoped one.
    cases change with
    | attributes scope table =>
      cases unscoped : Scope.isUnscoped scope <;> simp [unscoped?, unscoped]
    | other change => simp [unscoped?]

/-- The unscoped tables among pruned changes are those of the changes, pruned by themselves. -/
theorem filterMap_unscoped?_pruned (changes : List (ListedChange σ β)) :
    (pruned changes).filterMap unscoped? =
      Prunable.keepLast (changes.filterMap unscoped?) := by
  -- The induction follows the changes, since pruning looks at what comes later.
  induction changes with
  | nil => rfl
  | cons change rest ih =>
    -- A change with a scope, and one to something else, adds no table to either side.
    cases change with
    | attributes scope table =>
      cases unscoped : Scope.isUnscoped scope with
      | true =>
        -- The first table is pruned by the unscoped ones that come later.
        simp [pruned, unscoped?, unscoped, Prunable.keepLast_cons, Prunable.unscoped?,
          Prunable.withTable, ih, renames_eq]
      | false => simp [pruned, unscoped?, unscoped, ih]
    | other change => exact ih

/-- Pruning changes nothing but what unscoped tables hold. -/
theorem map_apartFromTable_pruned (changes : List (ListedChange σ β)) :
    (pruned changes).map apartFromTable = changes.map apartFromTable := by
  -- Pruning touches a table alone, so each change is compared with itself.
  induction changes with
  | nil => rfl
  | cons change rest ih =>
    cases change with
    | attributes scope table =>
      cases unscoped : Scope.isUnscoped scope <;> simp [pruned, apartFromTable, unscoped, ih]
    | other change => simp [pruned, ih]

/-- Deleting the keys that an unscoped table further down has prunes the changes. -/
theorem prunesTo_pruned (changes : List (ListedChange σ β)) :
    PrunesTo changes (pruned changes) where
  unscoped := filterMap_unscoped?_pruned changes ▸ RenameTable.keepsLast_keepLast _
  others := map_apartFromTable_pruned changes

end Pruning

/-- Whether a change holds nothing; `void` tells which changes other than to attributes do. -/
def isVoid (void : β → Bool) : ListedChange σ β → Bool
  | .attributes _ table => table.isEmpty
  | .other change => void change

end ListedChange

/-- A chain has the rules of pruned changes in their order, without those of changes that hold
nothing. -/
def IsChainOf {σ β α : Type} [Scope σ] (toRule : ListedChange σ β → α) (void : β → Bool)
    (changes : List (ListedChange σ β)) (chain : List α) : Prop :=
  ∃ kept, ListedChange.PrunesTo changes kept ∧
    chain = (kept.filter (!·.isVoid void)).map toRule

/-- Rules that stand for changes make a chain of them, if the rules needed are those of changes that
hold something. -/
theorem StandsFor.isChainOf {σ β α : Type} [Scope σ] [Prunable α] {toRule : ListedChange σ β → α}
    (stands : StandsFor toRule) {needed : α → Bool} {void : β → Bool}
    (agree : ∀ change, needed (toRule change) = !change.isVoid void)
    (changes : List (ListedChange σ β)) :
    IsChainOf toRule void changes
      ((Prunable.keepLast (changes.map toRule)).filter needed) := by
  -- The changes are pruned first, and then those that hold nothing are left out.
  refine ⟨_, ListedChange.prunesTo_pruned changes, ?_⟩
  rw [stands.keepLast_map, List.filter_map]
  exact congrArg _ (List.filter_congr fun change _ => agree change)

/-! ### Stages of metrics -/

/-- The rules of a stage, each as a stage of its own. -/
def MetricStage.singles : MetricStage → List MetricStage
  | .pass steps => steps.rules.map fun rule => .pass ⟨[rule]⟩
  | .split rule => [.split rule]
  | .merge rule => [.merge rule]

namespace MetricPart

/-- A part by itself is not taken apart any further. -/
theorem singles_stage (part : MetricPart) : part.stage.singles = [part.stage] := by
  cases part <;> rfl

/-- The stage of the rules collected so far holds these rules. -/
theorem flatMap_singles_collected (rules : List MetricRule) :
    (collected rules).flatMap MetricStage.singles = rules.map fun rule => .pass ⟨[rule]⟩ := by
  -- No rules make no stage, and some make one pass of which each is a single again.
  cases rules with
  | nil => rfl
  | cons rule rest => simp [collected, MetricStage.singles]

/-- Taken apart again, the stages are the rules collected so far and then the parts that have a
place, all in order. -/
theorem flatMap_singles_stages {version : Version} {rules : List MetricRule}
    {parts : List MetricPart} {made : List MetricStage}
    (success : stages version rules parts = .ok made) :
    made.flatMap MetricStage.singles =
      rules.map (fun rule => .pass ⟨[rule]⟩) ++ (parts.filter isStaged).map stage := by
  refine stages_induction
    (motive := fun rules parts made => made.flatMap MetricStage.singles =
      rules.map (fun rule => .pass ⟨[rule]⟩) ++ (parts.filter isStaged).map stage)
    ?nil ?collect ?pass ?barrier success
  -- At the end there are the rules collected last.
  case nil =>
    intro rules
    rw [flatMap_singles_collected, List.filter_nil, List.map_nil, List.append_nil]
  case collect =>
    -- A rule that is collected stands behind those collected before it.
    intro rules rule rest made placed ih
    rw [ih, List.filter_cons_of_pos placed, List.map_append, List.append_assoc]
    rfl
  -- A part without a place adds nothing.
  case pass =>
    intro rules part rest made idle ih
    rw [ih, List.filter_cons_of_neg (by simp [idle])]
  case barrier =>
    -- The rules collected come first, then the part, then the others.
    intro rules part rest made placed ih
    rw [List.flatMap_append, List.flatMap_cons, flatMap_singles_collected, singles_stage, ih,
      List.filter_cons_of_pos placed]
    rfl

end MetricPart

/-- Whether a change to metrics other than to attributes holds nothing. -/
def MetricOperation.isVoid : MetricOperation → Bool
  | .rename names => names.isEmpty
  | .split declaration => declaration.metricsFromAttributes.isEmpty
  | .merge declaration => declaration.attributesForMetrics.isEmpty
  | .toDelta names => names.isEmpty

/-- The changes to metrics that hold something are those that are not left out and have a place in
the stages. -/
theorem ListedChange.not_isVoid_eq (change : ListedChange (List String) MetricOperation) :
    (!change.isVoid MetricOperation.isVoid) = (change.isKept && change.metricPart.isStaged) := by
  -- The attribute tables, and each kind of operation, hold something where the part is kept or
  -- placed.
  cases change with
  | attributes names table => rfl
  | other operation =>
    cases operation with
    | rename names => exact (Bool.and_true _).symm
    | split declaration => rfl
    | merge declaration => rfl
    | toDelta names => exact (Bool.and_true _).symm

/-! ### Whole versions -/

namespace VersionStep

/-- The chains of a step hold what the definitions of its version list, pruned. -/
structure IsPruned (step : VersionStep) (definitions : List VersionDefinition) : Prop where
  /-- The tables for resources are those for all telemetry and then those of the section. -/
  resource : ∃ kept, RenameTable.KeepsLast (VersionDefinition.resourceTables definitions) kept ∧
    step.resource = kept.filter (!·.isEmpty)
  /-- The tables for log records are those for all telemetry and then those of the section. -/
  logs : ∃ kept, RenameTable.KeepsLast (VersionDefinition.logTables definitions) kept ∧
    step.logs = kept.filter (!·.isEmpty)
  /-- The rules for spans are a chain of the changes to spans. -/
  spans : IsChainOf ListedChange.spanRule nofun (VersionDefinition.spanChanges definitions)
    step.spans.rules
  /-- The rules for span events are a chain of the changes to span events. -/
  events : IsChainOf ListedChange.eventRule Table.isEmpty
    (VersionDefinition.eventChanges definitions) step.spans.events
  /-- The stages for metrics, taken apart, are a chain of the changes to metrics. -/
  metrics : IsChainOf (fun change => change.metricPart.stage) MetricOperation.isVoid
    (VersionDefinition.metricChanges definitions)
    (step.metrics.stages.flatMap MetricStage.singles)

/-- A step that is made from definitions holds what they list, pruned. -/
theorem isPruned_of_ofDefinitions {version : Version} {definitions : List VersionDefinition}
    {step : VersionStep} (made : ofDefinitions version definitions = .ok step) :
    step.IsPruned definitions := by
  -- The step has the chains that its definitions make, and each is compared with the listed
  -- changes.
  obtain ⟨stages, staged, rfl⟩ := eq_of_ofDefinitions made
  refine ⟨⟨_, RenameTable.keepsLast_keepLast _, rfl⟩, ⟨_, RenameTable.keepsLast_keepLast _, rfl⟩,
    ?_, ?_, ?_⟩
  · -- The rules for spans stand for the changes, and a change is void if its table is.
    rw [VersionDefinition.spanRules_eq]
    refine ListedChange.standsFor_spanRule.isChainOf (fun change => ?_) _
    cases change with
    | attributes names table => rfl
    | other change => exact change.elim
  · -- So do the rules for events, where a change may be to names.
    rw [VersionDefinition.eventRules_eq]
    refine ListedChange.standsFor_eventRule.isChainOf (fun change => ?_) _
    cases change <;> rfl
  · -- The parts that are kept and have a place are those of the changes that hold something.
    rw [MetricPart.ofDefinitions_eq, ListedChange.standsFor_metricPart.keepLast_map,
      ListedChange.pruned_filter_isKept] at staged
    refine ⟨_, ListedChange.prunesTo_pruned _, ?_⟩
    -- Taken apart, the stages are the parts with a place, which the pruned changes have.
    rw [MetricPart.flatMap_singles_stages staged, List.map_nil, List.nil_append, List.filter_map,
      List.filter_filter, List.map_map]
    refine congrArg _ (List.filter_congr fun change _ => ?_)
    rw [ListedChange.not_isVoid_eq, Bool.and_comm]
    rfl

end VersionStep

namespace Schema

/-- Pruning leaves a table exactly the entries whose key no later table has, and so a key in the
last table that has it. The chains of a schema made from a file hold what it lists for a version in
all declarations, in order and without what holds nothing: unscoped tables are pruned by one
another, and all other changes are as they are listed. -/
theorem isPruned_of_ofFile (file : SchemaFile) :
    (∀ tables : List RenameTable, RenameTable.KeepsLast tables (Prunable.keepLast tables)) ∧
    ∀ schema, ofFile file = .ok schema → ∀ step ∈ schema.versions,
      step.IsPruned (file.definitions step.version) := by
  refine ⟨RenameTable.keepsLast_keepLast, fun schema made step member => ?_⟩
  -- Each step is made from all definitions of its version.
  obtain ⟨-, -, each, -⟩ := ofFile_eq_ok_iff.1 made
  exact VersionStep.isPruned_of_ofDefinitions (each step member)

/-- A file that declares one version twice, with tables for all telemetry in both declarations and a
scoped table between unscoped ones. -/
def twiceDeclared : SchemaFile :=
  ⟨"1.0.0", "https://opentelemetry.io/schemas/1.1.0",
    [("1.1", { VersionDefinition.empty with
        all := [some (.ofList [("a", "b"), ("c", "d")])]
        spans := [some ⟨.ofList [("a", "x")], ["GET"]⟩, some ⟨.ofList [("c", "y")], []⟩] }),
      ("1.1.0", { VersionDefinition.empty with all := [some (.ofList [("a", "e")])] })]⟩

/-- For resources the first table keeps one entry. For spans it keeps none and vanishes, while the
scoped table neither loses its key nor takes it from the table before. -/
theorem isPruned_of_ofFile_twiceDeclared :
    (ofFile twiceDeclared).toOption.map (fun schema => schema.versions.map fun step =>
        (step.resource.map (·.entries), step.spans.rules.map (·.table.entries))) =
      some [([[("c", "d")], [("a", "e")]], [[("a", "e")], [("a", "x")], [("c", "y")]])] ∧
    ∃ schema, ofFile twiceDeclared = .ok schema ∧
      ∀ step ∈ schema.versions, step.IsPruned (twiceDeclared.definitions step.version) := by
  -- The file makes a schema, as evaluation shows.
  obtain ⟨schema, made⟩ : ∃ schema, ofFile twiceDeclared = .ok schema :=
    Except.exists_of_isOk (by decide +kernel)
  exact ⟨by decide +kernel, schema, made, (isPruned_of_ofFile twiceDeclared).2 schema made⟩

end Schema

end SchemaUplift
