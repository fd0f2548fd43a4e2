import SchemaUplift.Proofs.Interpretation.Chain
import SchemaUplift.Proofs.Rename
import SchemaUplift.Proofs.Schema.Path

/-! The order in which entities list their attributes does not matter: whether a conversion succeeds
and which attributes it leaves depend on what the lists hold alone. -/

namespace SchemaUplift

variable {α β : Type}

/-! ### Results that correspond -/

section Results

variable {γ δ : Type} {related : α → β → Prop} {after : γ → δ → Prop}

/-- Results that correspond still do when both are put into larger values that correspond. -/
theorem rel_map {first : Option α} {second : Option β} {f : α → γ} {g : β → δ}
    (results : Option.Rel related first second)
    (into : ∀ value other, related value other → after (f value) (g other)) :
    Option.Rel after (first.map f) (second.map g) := by
  -- Neither result is there, or both are and go into the larger values.
  cases results with
  | none => exact .none
  | some here => exact .some (into _ _ here)

/-- Results that correspond still do after steps that treat them alike. -/
theorem rel_bind {first : Option α} {second : Option β} {f : α → Option γ} {g : β → Option δ}
    (results : Option.Rel related first second)
    (next : ∀ value other, related value other → Option.Rel after (f value) (g other)) :
    Option.Rel after (first.bind f) (second.bind g) := by
  -- A failure on one side is one on the other, so nothing comes after it.
  cases results with
  | none => exact .none
  | some here => exact next _ _ here

end Results

/-- The step succeeds on one of two values that correspond exactly if it does on the other, and then
leaves values that correspond. -/
def Respects (related : α → α → Prop) (step : α → Option α) : Prop :=
  ∀ ⦃value other⦄, related value other → Option.Rel related (step value) (step other)

namespace Respects

variable {related : α → α → Prop}

/-- Steps in order treat alike what each of them does. -/
theorem inOrder {steps : List (α → Option α)} (each : ∀ step ∈ steps, Respects related step) :
    Respects related (inOrder steps) := by
  -- The induction takes the first step on both values.
  induction steps with
  | nil =>
    intro value other start
    exact .some start
  | cons step rest ih =>
    obtain ⟨first, others⟩ := List.forall_mem_cons.1 each
    intro value other start
    -- The other steps start from values that correspond, if the first one leaves any.
    exact rel_bind (first start) fun _ _ here => ih others here

/-- A step on every item treats lists alike whose items correspond one by one. -/
theorem mapM {step : α → Option α} (respects : Respects related step) :
    Respects (List.Forall₂ related) fun items => items.mapM step := by
  intro items others corresponding
  -- The lists are as long as each other, and the induction follows both.
  induction corresponding with
  | nil => exact .some .nil
  | cons here _ ih =>
    simp only [List.mapM_cons]
    -- The heads succeed or fail together, and so do the tails.
    refine rel_bind (respects here) fun changed changed' first => ?_
    exact rel_bind ih fun changedRest changedRest' rest => .some (.cons first rest)

/-- Attempts in sequence, one for each item of a list, treat alike what each of them does. -/
theorem inSequence {ι ρ ε : Type} {step : ι → α → Attempt ρ ε α}
    (each : ∀ item, Respects related fun value => (step item value).success?) (items : List ι) :
    Respects related fun value => (Attempt.inSequence (items.map step) value).success? :=
  Attempt.inSequence_of_inOrder inOrder each items

end Respects

/-! ### Attributes -/

/-- A rename succeeds on attributes in one order exactly if it does in another, and then leaves the
same attributes. Which conflict it reports, and what it has written by then, may differ. -/
theorem RenameTable.respects_rename? (table : RenameTable) :
    Respects List.Perm table.rename? := by
  intro attributes others reordered
  -- Whether a key is named, and whether new keys clash, can be told from what the list holds.
  have named : (∃ entry ∈ attributes, table.contains entry.key = true) ↔
      ∃ entry ∈ others, table.contains entry.key = true := by
    simp only [reordered.mem_iff]
  -- The renamed attributes are the same too, in another order.
  have renamed : (attributes.map table.renamed).Perm (others.map table.renamed) :=
    reordered.map _
  have distinct : Attributes.HasDistinctKeys (attributes.map table.renamed) ↔
      Attributes.HasDistinctKeys (others.map table.renamed) := (renamed.map _).nodup_iff
  by_cases clear : (∃ entry ∈ attributes, table.contains entry.key = true) →
      Attributes.HasDistinctKeys (attributes.map table.renamed)
  · -- Both renames succeed, and leave the renamed attributes.
    have clear' := clear
    rw [named, distinct] at clear'
    rw [rename?_eq_some_iff.2 ⟨clear, rfl⟩, rename?_eq_some_iff.2 ⟨clear', rfl⟩]
    exact .some renamed
  · -- Both renames meet a clash, though it may be another one.
    have clash : table.rename? attributes = none :=
      Option.eq_none_iff_forall_ne_some.2 fun result success =>
        clear (rename?_eq_some_iff.1 success).1
    rw [named, distinct] at clear
    have clash' : table.rename? others = none :=
      Option.eq_none_iff_forall_ne_some.2 fun result success =>
        clear (rename?_eq_some_iff.1 success).1
    rw [clash, clash']
    exact .none

/-! ### Entities -/

/-- The other resource has the same attributes, in some order, and is otherwise the same. -/
def Resource.Reordered (resource other : Resource) : Prop :=
  ∃ attributes, resource.attributes.Perm attributes ∧ other = { resource with attributes }

/-- The other event has the same attributes, in some order, and is otherwise the same. -/
def SpanEvent.Reordered (event other : SpanEvent) : Prop :=
  ∃ attributes, event.attributes.Perm attributes ∧ other = { event with attributes }

/-- The other span and its events have the same attributes, in some order, and are otherwise the
same. -/
def Span.Reordered (span other : Span) : Prop :=
  ∃ attributes events, span.attributes.Perm attributes ∧
    List.Forall₂ SpanEvent.Reordered span.events events ∧ other = { span with attributes, events }

/-- The other log record has the same attributes, in some order, and is otherwise the same. -/
def LogRecord.Reordered (record other : LogRecord) : Prop :=
  ∃ attributes, record.attributes.Perm attributes ∧ other = { record with attributes }

theorem RenameTable.respects_convertResource (table : RenameTable) :
    Respects Resource.Reordered fun resource => (table.convertResource resource).success? := by
  rintro resource other ⟨attributes, reordered, rfl⟩
  -- The attributes decide whether the resource is converted.
  simp only [success?_convertResource]
  refine rel_map (table.respects_rename? reordered) ?_
  intro left right same
  exact ⟨right, same, rfl⟩

theorem RenameTable.respects_convertLogRecord (table : RenameTable) (index : Nat) :
    Respects LogRecord.Reordered fun record =>
      (table.convertLogRecord index record).success? := by
  rintro record other ⟨attributes, reordered, rfl⟩
  -- The attributes decide whether the record is converted.
  simp only [success?_convertLogRecord]
  refine rel_map (table.respects_rename? reordered) ?_
  intro left right same
  exact ⟨right, same, rfl⟩

theorem SpanRule.respects_effect? (rule : SpanRule) : Respects Span.Reordered rule.effect? := by
  rintro span other ⟨attributes, events, reordered, corresponding, rfl⟩
  unfold effect?
  -- Both spans have the one name that decides whether the rule applies.
  split
  · refine rel_map (rule.table.respects_rename? reordered) ?_
    intro left right same
    exact ⟨right, events, same, corresponding, rfl⟩
  · exact .some ⟨attributes, events, reordered, corresponding, rfl⟩

/-- A rename of the attributes of events in scope treats alike events that differ in the order of
attributes. -/
theorem SpanEvent.respects_rename? (events : NameSet) (table : RenameTable) :
    Respects SpanEvent.Reordered fun event =>
      if events.covers event.name then
        (table.rename? event.attributes).map fun attributes => { event with attributes }
      else some event := by
  rintro event other ⟨attributes, reordered, rfl⟩
  dsimp only
  -- Both events have the one name that decides whether the rename concerns them.
  split
  · refine rel_map (table.respects_rename? reordered) ?_
    intro left right same
    exact ⟨right, same, rfl⟩
  · exact .some ⟨attributes, reordered, rfl⟩

theorem EventRule.respects_effect? (rule : EventRule) : Respects Span.Reordered rule.effect? := by
  rintro span other ⟨attributes, others, reordered, corresponding, rfl⟩
  cases rule with
  | renameEvents names =>
    -- New names cannot clash, so both spans get theirs.
    refine .some ⟨attributes, _, reordered, ?_, rfl⟩
    -- New names come from the old names, which correspond.
    rw [List.forall₂_map_left_iff, List.forall₂_map_right_iff]
    refine corresponding.imp ?_
    rintro event other ⟨attributes, reordered, rfl⟩
    exact ⟨attributes, reordered, rfl⟩
  | renameAttributes spans events table =>
    -- Both spans have the one name that decides whether the rename concerns their events.
    unfold effect?
    dsimp only
    split
    · refine rel_map ((SpanEvent.respects_rename? events table).mapM corresponding) ?_
      intro left right same
      exact ⟨attributes, right, reordered, same, rfl⟩
    · exact .some ⟨attributes, others, reordered, corresponding, rfl⟩

/-! ### From version to version -/

theorem SpanPass.respects_convert (pass : SpanPass) :
    Respects (List.Forall₂ Span.Reordered) fun spans => (pass.convert spans).success? := by
  simp only [success?_convert]
  refine Respects.inOrder ?_
  intro step member
  -- Each step takes all spans through one rule for spans or for events.
  rcases List.mem_append.1 member with span | event
  · obtain ⟨rule, -, rfl⟩ := List.mem_map.1 span
    exact rule.respects_effect?.mapM
  · obtain ⟨rule, -, rfl⟩ := List.mem_map.1 event
    exact rule.respects_effect?.mapM

theorem VersionStep.respects_convertLogs (step : VersionStep) :
    Respects (List.Forall₂ LogRecord.Reordered) fun records =>
      (step.convertLogs records).success? := by
  -- Each table takes all records.
  simp only [success?_convertLogs_eq]
  refine Respects.inOrder ?_
  intro pass member
  obtain ⟨table, -, rfl⟩ := List.mem_map.1 member
  exact (table.respects_convertLogRecord 0).mapM

namespace Schema

/-- Two resources, two lists of spans and their events, or two lists of log records that differ in
the order of attributes alone are both converted or both fail, and if they are converted, what is
left of them differs in the order of attributes alone. -/
theorem rel_success?_convert_of_reordered (schema : Schema) (start : Version) :
    (∀ {resource other}, resource.Reordered other → Option.Rel Resource.Reordered
      (schema.convertResource start resource).success?
      (schema.convertResource start other).success?) ∧
    (∀ {spans others}, List.Forall₂ Span.Reordered spans others →
      Option.Rel (List.Forall₂ Span.Reordered) (schema.convertSpans start spans).success?
        (schema.convertSpans start others).success?) ∧
    ∀ {records others}, List.Forall₂ LogRecord.Reordered records others →
      Option.Rel (List.Forall₂ LogRecord.Reordered) (schema.convertLogs start records).success?
        (schema.convertLogs start others).success? := by
  -- Each of the three takes one pass for each pending step.
  have resources := Respects.inSequence (fun step =>
    Respects.inSequence RenameTable.respects_convertResource step.resource) (schema.pending start)
  have spans := Respects.inSequence (fun step =>
    step.spans.respects_convert) (schema.pending start)
  have logs := Respects.inSequence VersionStep.respects_convertLogs (schema.pending start)
  rw [convertSpans_eq, convertLogs_eq]
  exact ⟨fun reordered => resources reordered, fun reordered => spans reordered,
    fun reordered => logs reordered⟩

/-- A schema whose only step exchanges two keys wherever they stand. -/
def exchanging : Schema :=
  let table : RenameTable := .ofList [("host", "peer"), ("peer", "host")]
  { versions := [{
      version := ⟨[1, 1, 0], "1.1.0"⟩
      resource := [table]
      spans := ⟨[⟨∅, table⟩], [.renameAttributes ∅ ∅ table]⟩
      metrics := ⟨[]⟩
      logs := [table] }]
    schemaUrl := none
    ascending := List.pairwise_singleton _ _ }

/-- Entities with both keys are converted whichever they list first. -/
theorem rel_success?_convert_of_reordered_exchanging :
    let both : Attributes := [⟨"host", .string "a"⟩, ⟨"peer", .string "b"⟩]
    let resource (attributes : Attributes) : Resource := ⟨attributes, 0⟩
    let span (attributes : Attributes) : Span :=
      ⟨"GET", 0, "", 0, 0, attributes, [⟨"retry", 0, attributes⟩], []⟩
    let record (attributes : Attributes) : LogRecord := ⟨0, 0, "", .absent, attributes, ""⟩
    ((exchanging.convertResource .zero (resource both)).success?.isSome ∧
      Option.Rel Resource.Reordered (exchanging.convertResource .zero (resource both)).success?
        (exchanging.convertResource .zero (resource both.reverse)).success?) ∧
    ((exchanging.convertSpans .zero [span both]).success?.isSome ∧
      Option.Rel (List.Forall₂ Span.Reordered)
        (exchanging.convertSpans .zero [span both]).success?
        (exchanging.convertSpans .zero [span both.reverse]).success?) ∧
    (exchanging.convertLogs .zero [record both]).success?.isSome ∧
      Option.Rel (List.Forall₂ LogRecord.Reordered)
        (exchanging.convertLogs .zero [record both]).success?
        (exchanging.convertLogs .zero [record both.reverse]).success? := by
  intro both resource span record
  have reordered : both.Perm both.reverse := both.reverse_perm.symm
  have sameResource : (resource both).Reordered (resource both.reverse) := ⟨_, reordered, rfl⟩
  have sameSpan : (span both).Reordered (span both.reverse) :=
    ⟨_, _, reordered, .cons ⟨_, reordered, rfl⟩ .nil, rfl⟩
  have sameRecord : (record both).Reordered (record both.reverse) := ⟨_, reordered, rfl⟩
  obtain ⟨resources, spans, logs⟩ := rel_success?_convert_of_reordered exchanging .zero
  exact ⟨⟨by decide +kernel, resources sameResource⟩,
    ⟨by decide +kernel, spans (.cons sameSpan .nil)⟩,
    by decide +kernel, logs (.cons sameRecord .nil)⟩

end Schema

end SchemaUplift
