import SchemaUplift.Rule.Routing
import SchemaUplift.Rename
import SchemaUplift.Telemetry.Request

/-! What a version changes on spans and their events. -/

namespace SchemaUplift

/-- Renames attributes of the spans within a scope of names. -/
structure SpanRule where
  /-- The names of the spans concerned; empty for all spans. -/
  spans : NameSet
  /-- The new attribute keys. -/
  table : RenameTable

namespace SpanRule

/-- Whether the rule concerns a span of the given name. -/
def appliesTo (rule : SpanRule) (name : String) : Bool := rule.spans.covers name

/-- Renames the attributes of the span at `index` if the rule concerns it. -/
def convert (rule : SpanRule) (index : Nat) (span : Span) : Conversion Span :=
  if rule.appliesTo span.name then
    (rule.table.convert (.here (.span index)) span.attributes).map
      fun attributes => { span with attributes }
  else .unchanged span

end SpanRule

/-- A change to the events of spans. -/
inductive EventRule where
  /-- Gives events new names. -/
  | renameEvents (names : RenameTable)
  /-- Renames attributes of the events within a scope of names, on spans within another. -/
  | renameAttributes (spans events : NameSet) (table : RenameTable)

namespace EventRule

/-- Gives the event at an address its new name, if it has one. -/
def renameEvent (names : RenameTable) (address : Address) (event : SpanEvent) :
    Conversion SpanEvent :=
  match names.get? event.name with
  | some name => .changed { event with name } (.renamedName address event.name)
  | none => .unchanged event

/-- Renames the attributes of the event at an address if its name is in scope. -/
def convertAttributes (events : NameSet) (table : RenameTable) (address : Address)
    (event : SpanEvent) : Conversion SpanEvent :=
  if events.covers event.name then
    (table.convert address event.attributes).map fun attributes => { event with attributes }
  else .unchanged event

/-- Changes the events of the span at `index`, in order. -/
def convert (rule : EventRule) (index : Nat) (span : Span) : Conversion Span :=
  match rule with
  | .renameEvents names =>
    (Attempt.forEach (fun event => renameEvent names (.here (.spanEvent index event)))
      span.events).map fun events => { span with events }
  | .renameAttributes spans events table =>
    if spans.covers span.name then
      (Attempt.forEach
        (fun event => convertAttributes events table (.here (.spanEvent index event)))
        span.events).map fun events => { span with events }
    else .unchanged span

end EventRule

/-- What one version changes on spans: rules on the spans themselves, and then on their
events. -/
structure SpanPass where
  /-- The changes to spans. -/
  rules : List SpanRule
  /-- The changes to events. -/
  events : List EventRule

namespace SpanPass

/-- The number of rules. -/
def size (pass : SpanPass) : Nat := pass.rules.length + pass.events.length

/-- Whether there is no rule. -/
def isEmpty (pass : SpanPass) : Bool := pass.rules.isEmpty && pass.events.isEmpty

/-- The span rules by span name: each name in some scope gets the rules that concern it, and
other names get the unscoped ones. -/
def routing (pass : SpanPass) : Routing where
  byName := .ofList <| pass.rules.flatMap fun rule => rule.spans.keys.map fun name =>
    (name, positionsWhere (·.appliesTo name) pass.rules)
  fallback := positionsWhere (·.spans.isEmpty) pass.rules

/-- Converts each span in turn, by the rules for its name and then by all event rules. -/
def convert (pass : SpanPass) (spans : List Span) : Conversion (List Span) :=
  let routing := pass.routing
  Attempt.forEach (fun index span =>
    (Attempt.inSequence ((routing.select pass.rules span.name).map (·.convert index))
      span).andThen
    (Attempt.inSequence (pass.events.map (·.convert index)))) spans

end SpanPass

end SchemaUplift
