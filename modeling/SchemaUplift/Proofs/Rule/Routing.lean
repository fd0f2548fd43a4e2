import Mathlib.Data.List.Basic
import SchemaUplift.Proofs.Attempt
import SchemaUplift.Proofs.Table
import SchemaUplift.Rule.Metric
import SchemaUplift.Rule.Span

/-! Routing by name changes nothing: a pass does what all its rules do one after the other. -/

namespace SchemaUplift

/-- The positions of the items that pass a test. -/
theorem mem_positionsWhere {α : Type} {test : α → Bool} {items : List α} {position : Nat} :
    position ∈ positionsWhere test items ↔ ∃ item, items[position]? = some item ∧ test item := by
  -- Positions are the second parts of the numbered items that pass.
  simp only [positionsWhere, List.mem_map, List.mem_filter, Prod.exists,
    List.mk_mem_zipIdx_iff_getElem?]
  constructor
  · rintro ⟨item, _, ⟨found, passes⟩, rfl⟩
    exact ⟨item, found, passes⟩
  · rintro ⟨item, found, passes⟩
    exact ⟨item, position, ⟨found, passes⟩, rfl⟩

/-- Positions of items that pass a test lie within the list. -/
theorem lt_of_mem_positionsWhere {α : Type} {test : α → Bool} {items : List α} {position : Nat}
    (member : position ∈ positionsWhere test items) : position < items.length := by
  -- An item is found at no position past the end.
  obtain ⟨item, found, -⟩ := mem_positionsWhere.1 member
  exact (List.getElem?_eq_some_iff.1 found).1

/-- The items at the positions that pass a test are the items that pass it. -/
theorem filterMap_positionsWhere {α : Type} (test : α → Bool) (items : List α) :
    (positionsWhere test items).filterMap (items[·]?) = items.filter test := by
  -- Every item is found again at the position that it was numbered with.
  rw [positionsWhere, List.filterMap_map]
  have found : ∀ entry ∈ items.zipIdx.filter fun entry => test entry.1,
      ((items[·]?) ∘ (·.2)) entry = some entry.1 := fun entry member =>
    List.mk_mem_zipIdx_iff_getElem?.1 (List.mem_of_mem_filter member)
  calc
    (items.zipIdx.filter fun entry => test entry.1).filterMap ((items[·]?) ∘ (·.2)) =
        (items.zipIdx.filter fun entry => test entry.1).map (·.1) := by
      rw [List.filterMap_congr found, ← List.filterMap_eq_map]
      rfl
    _ = (items.zipIdx.map (·.1)).filter test := by rw [List.filter_map]; rfl
    _ = items.filter test := by rw [List.zipIdx_map_fst]

/-! ### Spans -/

/-- A span keeps its name when its attributes are renamed. -/
theorem SpanRule.name_convert (rule : SpanRule) (index : Nat) (span : Span) :
    (rule.convert index span).value.name = span.name := by
  -- Whether the rule applies or not, the span is put together again under its name.
  rw [SpanRule.convert]
  split <;> rfl

namespace SpanPass

/-- A name that some scope has is routed by the scopes, and any other name to the empty scopes. -/
theorem forName_routing (pass : SpanPass) (name : String) :
    pass.routing.forName name =
      if name ∈ pass.rules.flatMap (·.spans.keys) then positionsWhere (·.appliesTo name) pass.rules
      else positionsWhere (·.spans.isEmpty) pass.rules := by
  -- Every name gets the positions of the rules that apply to it, whichever rule mentions it.
  have pairs : (pass.rules.flatMap fun rule => rule.spans.keys.map fun name =>
        (name, positionsWhere (SpanRule.appliesTo · name) pass.rules)) =
      (pass.rules.flatMap (·.spans.keys)).map fun name =>
        (name, positionsWhere (SpanRule.appliesTo · name) pass.rules) := by
    rw [List.map_flatMap]
  rw [Routing.forName, routing]
  simp only [pairs, Table.get?_ofList_map]
  split <;> rfl

/-- No span is routed past the end of the rules. -/
theorem lt_of_mem_forName {pass : SpanPass} {name : String} {position : Nat}
    (member : position ∈ pass.routing.forName name) : position < pass.rules.length := by
  -- Either way the positions are those of rules that pass some test.
  rw [forName_routing] at member
  split at member
  · exact lt_of_mem_positionsWhere member
  · exact lt_of_mem_positionsWhere member

/-- The rules that a span is routed to are those that apply to its name. -/
theorem select_routing (pass : SpanPass) (name : String) :
    pass.routing.select pass.rules name = pass.rules.filter (·.appliesTo name) := by
  rw [Routing.select, forName_routing]
  split
  · -- A mentioned name is routed to the positions of the rules that apply to it.
    rw [filterMap_positionsWhere]
  · -- A name that no scope mentions is covered by the empty scopes alone.
    rename_i unmentioned
    rw [filterMap_positionsWhere]
    refine List.filter_congr fun rule member => ?_
    have absent : ¬ rule.spans.contains name = true := fun within =>
      unmentioned (List.mem_flatMap.2 ⟨rule, member, (Table.mem_keys_iff _ _).2 within⟩)
    simp [SpanRule.appliesTo, NameSet.covers, absent]

/-- A pass takes each span through all its rules, and then through all its event rules. -/
theorem convert_eq (pass : SpanPass) : pass.convert = Attempt.forEach fun index span =>
    (Attempt.inSequence (pass.rules.map (·.convert index)) span).andThen
      (Attempt.inSequence (pass.events.map (·.convert index))) := by
  funext spans
  simp only [convert, select_routing]
  congr 1
  funext index span
  -- Rules that do not apply may be left out: they leave the span as it is, and no rule for spans
  -- changes its name.
  rw [Attempt.inSequence_map_filter (fun other => other.name = span.name)]
  · intro rule other same passed
    rw [SpanRule.convert, same, if_neg (by simp [passed])]
  · exact fun rule other same => (rule.name_convert index other).trans same
  · rfl

end SpanPass

/-! ### Metrics -/

namespace MetricRule

/-- A rule leaves alone a metric of a name that it does not concern. -/
theorem convert_of_not_appliesTo {rule : MetricRule} {metric : Metric}
    (passed : ¬ rule.appliesTo metric.name = true) (index : Nat) :
    rule.convert index metric = .unchanged metric := by
  rw [MetricRule.convert.eq_def, if_neg passed]

/-- A metric gets the name that the rule tells. -/
theorem name_convert (rule : MetricRule) (index : Nat) (metric : Metric) :
    (rule.convert index metric).value.name = rule.nameAfter metric.name := by
  -- The three kinds of rules rename the metric, its attributes, or nothing.
  cases rule with
  | rename names =>
    rw [MetricRule.convert.eq_def]
    split
    · rfl
    · -- A name that the table leaves alone is its own new name.
      rename_i absent
      simp_all [appliesTo, nameAfter, RenameTable.effective, Table.contains, Attempt.unchanged]
  | renameAttributes metrics table =>
    rw [MetricRule.convert.eq_def]
    split
    · -- Attributes are renamed within the data, which does not hold the name.
      simp only [Metric.renameAttributes, Metric.forEachPoint, nameAfter]
      split <;> rfl
    · rfl
  | toDelta metrics =>
    rw [MetricRule.convert.eq_def]
    split
    · -- Only the data is changed, in each of the outcomes.
      simp only [Metric.toDelta, nameAfter]
      split
      · split <;> rfl
      · rfl
    · rfl

/-- To a name that it does not mention a rule applies only if it applies to every name. -/
theorem appliesTo_of_not_mentioned {rule : MetricRule} {name : String}
    (absent : name ∉ rule.mentioned) : rule.appliesTo name = rule.isUnscoped := by
  -- The scope of a rule mentions its names, and covers another one only if it is empty.
  cases rule <;> simp_all [mentioned, appliesTo, isUnscoped, NameSet.covers, Table.mem_keys_iff]

end MetricRule

namespace MetricPass

/-- The rules that a metric meets as it goes through a pass. -/
def met (name : String) : List MetricRule → List MetricRule
  | [] => []
  | rule :: rest =>
    if rule.appliesTo name then rule :: met (rule.nameAfter name) rest else met name rest

/-- The route of a metric leads to the rules that it meets. -/
theorem filterMap_route (name : String) (passed rest : List MetricRule) :
    (route passed.length name rest).filterMap ((passed ++ rest)[·]?) = met name rest := by
  -- The induction moves the first rule to the rules passed.
  induction rest generalizing name passed with
  | nil => rfl
  | cons rule rest ih =>
    have next (name : String) := ih name (passed ++ [rule])
    simp only [List.length_append, List.length_singleton, List.append_assoc,
      List.singleton_append] at next
    rw [route, met]
    split
    · -- The first rule is met, so the route begins with its position.
      rw [List.filterMap_cons_some (b := rule) (by simp), next]
    · -- The first rule is not met, and the route goes past it.
      rw [next]

/-- A metric whose name no rule mentions meets the rules that apply to every name. -/
theorem met_of_not_mentioned {name : String} {rules : List MetricRule}
    (absent : name ∉ rules.flatMap MetricRule.mentioned) :
    met name rules = rules.filter MetricRule.isUnscoped := by
  -- Each rule is met exactly if it applies to every name, whatever the name is by then.
  induction rules with
  | nil => rfl
  | cons rule rest ih =>
    rw [List.flatMap_cons, List.mem_append, not_or] at absent
    rw [met, MetricRule.appliesTo_of_not_mentioned absent.1]
    cases unscoped : rule.isUnscoped with
    | false => simp [unscoped, ih absent.2]
    | true =>
      -- A rule that applies to every name gives none.
      have same : rule.nameAfter name = name := by
        cases rule <;> simp_all [MetricRule.isUnscoped, MetricRule.nameAfter]
      simp [unscoped, same, ih absent.2]

/-- A mentioned name is routed along its way through the pass, and any other name to the rules that
apply to every name. -/
theorem forName_routing (pass : MetricPass) (name : String) :
    pass.routing.forName name =
      if name ∈ pass.rules.flatMap MetricRule.mentioned then route 0 name pass.rules
      else positionsWhere MetricRule.isUnscoped pass.rules := by
  -- The table has the mentioned names with their routes.
  rw [Routing.forName, routing, Table.get?_ofList_map]
  split <;> rfl

/-- A route stays within the rules that it goes through. -/
theorem lt_of_mem_route {index : Nat} {name : String} {rules : List MetricRule} {position : Nat}
    (member : position ∈ route index name rules) : position < index + rules.length := by
  -- The induction goes along the route, whose first stop is the position of the first rule.
  induction rules generalizing index name with
  | nil => simp [route] at member
  | cons rule rest ih =>
    rw [route] at member
    rw [List.length_cons]
    split at member
    · -- The first rule is a stop of the route.
      rcases List.mem_cons.1 member with rfl | later
      · omega
      · have below := ih later
        omega
    · have below := ih member
      omega

/-- No metric is routed past the end of the rules. -/
theorem lt_of_mem_forName {pass : MetricPass} {name : String} {position : Nat}
    (member : position ∈ pass.routing.forName name) : position < pass.rules.length := by
  rw [forName_routing] at member
  -- A route starts at the first rule, and positions that pass a test lie within the rules.
  split at member
  · have below := lt_of_mem_route member
    omega
  · exact lt_of_mem_positionsWhere member

/-- The rules that a metric is routed to are those that it meets. -/
theorem select_routing (pass : MetricPass) (name : String) :
    pass.routing.select pass.rules name = met name pass.rules := by
  rw [Routing.select, forName_routing]
  split
  · -- The name is mentioned, and its route was made with the rules that it meets.
    exact filterMap_route name [] pass.rules
  · -- The name is not mentioned, so the metric meets those that apply to every name.
    rename_i unmentioned
    rw [filterMap_positionsWhere, met_of_not_mentioned unmentioned]

/-- The rules that a metric does not meet would not change it. -/
theorem inSequence_met (index : Nat) (rules : List MetricRule) (metric : Metric) :
    Attempt.inSequence ((met metric.name rules).map (·.convert index)) metric =
      Attempt.inSequence (rules.map (·.convert index)) metric := by
  -- The induction follows the route, under the name that the metric has by then.
  induction rules generalizing metric with
  | nil => rfl
  | cons rule rest ih =>
    rw [met]
    split
    · -- The first rule is met, and the others under the name that it gives.
      rw [← rule.name_convert index metric]
      exact Attempt.andThen_congr (ih _)
    · -- The first rule is not met: it would have left the metric as it is.
      rename_i passed
      rw [ih, List.map_cons, Attempt.inSequence, MetricRule.convert_of_not_appliesTo passed,
        Attempt.unchanged_andThen]

/-- A pass takes each metric through all its rules. -/
theorem convert_eq (pass : MetricPass) : pass.convert = Attempt.forEach fun index metric =>
    Attempt.inSequence (pass.rules.map (·.convert index)) metric := by
  funext metrics
  simp only [convert, select_routing, inSequence_met]

end MetricPass

/-! ### Plain scans -/

/-- Takes a metric through rules in order. Each is taken if it concerns the name that the metric has
at that moment, and passed over otherwise. -/
def MetricRule.scan (index : Nat) : List MetricRule → Metric → Conversion Metric
  | [], metric => .unchanged metric
  | rule :: rest, metric =>
    if rule.appliesTo metric.name then (rule.convert index metric).andThen (scan index rest)
    else scan index rest metric

/-- A scan may take the rules that it passes over, because they change nothing. -/
theorem MetricRule.scan_eq_inSequence (index : Nat) (rules : List MetricRule) (metric : Metric) :
    scan index rules metric = Attempt.inSequence (rules.map (·.convert index)) metric := by
  -- The induction takes or passes over the first rule, whatever name the metric has by then.
  induction rules generalizing metric with
  | nil => rfl
  | cons rule rest ih =>
    rw [scan]
    -- The rule is taken, and the others go on with its result.
    split
    · exact Attempt.andThen_congr (ih _)
    · -- The rule is passed over, and to take it would change nothing.
      rename_i passed
      rw [ih, List.map_cons, Attempt.inSequence, convert_of_not_appliesTo passed,
        Attempt.unchanged_andThen]

/-- Takes a span through the rules whose scope is empty or has its name, in order, and then through
all rules for events. -/
def SpanPass.scan (pass : SpanPass) (index : Nat) (span : Span) : Conversion Span :=
  let concerned := pass.rules.filter fun rule =>
    rule.spans.isEmpty || rule.spans.contains span.name
  (Attempt.inSequence (concerned.map (·.convert index)) span).andThen
    (Attempt.inSequence (pass.events.map (·.convert index)))

/-- Routing finds the rules that a plain scan would take. A pass over metrics, or over spans, leaves
the same values, records and failure as the scan of each item in turn, and every position to which
it routes an item is that of a rule. -/
theorem Routing.convert_eq_scan :
    (∀ pass : MetricPass,
      (∀ metrics, pass.convert metrics =
        Attempt.forEach (fun index => MetricRule.scan index pass.rules) metrics) ∧
      ∀ name, ∀ position ∈ pass.routing.forName name, position < pass.rules.length) ∧
    ∀ pass : SpanPass,
      (∀ spans, pass.convert spans = Attempt.forEach pass.scan spans) ∧
      ∀ name, ∀ position ∈ pass.routing.forName name, position < pass.rules.length := by
  refine ⟨fun pass => ⟨fun metrics => ?_, ?_⟩, fun pass => ⟨fun spans => ?_, ?_⟩⟩
  · -- Both sides are what all rules do, one after the other.
    have scanned (index : Nat) : MetricRule.scan index pass.rules =
        Attempt.inSequence (pass.rules.map (·.convert index)) :=
      funext (MetricRule.scan_eq_inSequence index pass.rules)
    rw [pass.convert_eq]
    simp only [scanned]
  · -- The positions are those of the route, or of a test.
    intro name position member
    exact MetricPass.lt_of_mem_forName member
  · -- The rules that a span is routed to are the ones in whose scopes it is.
    simp only [SpanPass.convert, SpanPass.select_routing]
    rfl
  · intro name position member
    exact SpanPass.lt_of_mem_forName member

end SchemaUplift
