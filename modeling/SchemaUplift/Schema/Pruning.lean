import SchemaUplift.Rule.Metric
import SchemaUplift.Rule.Span

/-! The last rename of a key wins: of tables that apply one after the other without a scope, each
loses the keys that a later one renames too. -/

namespace SchemaUplift

/-- Rules among which some rename attributes of every entity, without a scope. -/
class Prunable (α : Type) where
  /-- The table of a rule without a scope. -/
  unscoped? : α → Option RenameTable
  /-- The rule with another table. -/
  withTable : α → RenameTable → α

namespace Prunable

instance : Prunable RenameTable := ⟨some, fun _ table => table⟩

instance : Prunable SpanRule where
  unscoped? rule := if rule.spans.isEmpty then some rule.table else none
  withTable rule table := { rule with table }

instance : Prunable EventRule where
  unscoped?
    | .renameAttributes spans events table =>
      if spans.isEmpty && events.isEmpty then some table else none
    | .renameEvents _ => none
  withTable
    | .renameAttributes spans events _, table => .renameAttributes spans events table
    | .renameEvents names, _ => .renameEvents names

instance : Prunable MetricRule where
  unscoped?
    | .renameAttributes metrics table => if metrics.isEmpty then some table else none
    | _ => none
  withTable
    | .renameAttributes metrics _, table => .renameAttributes metrics table
    | rule, _ => rule

variable {α : Type} [Prunable α]

/-- What a walk back through rules has met. -/
structure Walk (α : Type) where
  /-- The rules met, with what is left of their tables. -/
  rules : List α
  /-- The keys that the unscoped tables among them rename. -/
  seen : List String

/-- Goes back by one rule. An unscoped table loses the keys seen so far, and the keys that it keeps
are seen from then on. -/
def meet (rule : α) (walk : Walk α) : Walk α :=
  match unscoped? rule with
  | some table =>
    let kept := table.filterKeys fun key => !walk.seen.contains key
    ⟨withTable rule kept :: walk.rules, kept.keys ++ walk.seen⟩
  | none => { walk with rules := rule :: walk.rules }

/-- Takes from each unscoped table the keys that an unscoped table after it renames, in one walk
from the last rule back to the first. -/
def keepLast (rules : List α) : List α := (rules.foldr meet ⟨[], []⟩).rules

end Prunable

end SchemaUplift
