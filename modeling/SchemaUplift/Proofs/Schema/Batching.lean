import SchemaUplift.Proofs.Except
import SchemaUplift.Proofs.Rule.Routing
import SchemaUplift.Proofs.Schema.Path

/-! Spans and log records fare in a batch as they do alone: what a conversion makes of an item, or
why it fails on it, does not depend on the other items of the list. -/

namespace SchemaUplift

variable {ρ ε α β : Type}

/-! ### Results of attempts -/

namespace Attempt

/-- The value that an attempt leaves, or the failure that ended it. -/
def result (attempt : Attempt ρ ε α) : Except ε α := attempt.outcome attempt.value

@[simp] theorem result_unchanged (value : α) :
    (unchanged value : Attempt ρ ε α).result = .ok value := rfl

/-- An attempt succeeds exactly if its result is the value that it leaves. -/
theorem result_eq_ok_iff {attempt : Attempt ρ ε α} {value : α} :
    attempt.result = .ok value ↔ attempt.failure = none ∧ attempt.value = value := by
  -- The result reads off the failure first, and the value only where there is none.
  obtain ⟨left, records, failure⟩ := attempt
  cases failure <;> simp [result, outcome]

/-- An attempt fails exactly if its result is the failure. -/
theorem result_eq_error_iff {attempt : Attempt ρ ε α} {cause : ε} :
    attempt.result = .error cause ↔ attempt.failure = some cause := by
  obtain ⟨left, records, failure⟩ := attempt
  cases failure <;> simp [result, outcome]

theorem result_map (f : α → β) (attempt : Attempt ρ ε α) :
    (attempt.map f).result = attempt.result.map f := by
  -- Seeing the value within a larger one leaves the failure alone.
  obtain ⟨value, records, failure⟩ := attempt
  cases failure <;> rfl

theorem result_andThen (attempt : Attempt ρ ε α) (next : α → Attempt ρ ε α) :
    (attempt.andThen next).result = attempt.result >>= fun value => (next value).result := by
  -- A failure of the first attempt is the failure of both.
  obtain ⟨value, records, failure⟩ := attempt
  cases failure <;> rfl

/-- Steps with the same results, item by item, have the same result in sequence. -/
theorem result_inSequence_congr {ι : Type} {step other : ι → α → Attempt ρ ε α}
    (alike : ∀ item value, (step item value).result = (other item value).result)
    (items : List ι) (value : α) :
    (inSequence (items.map step) value).result = (inSequence (items.map other) value).result := by
  -- The first steps leave the same value, from which the others go on.
  induction items generalizing value with
  | nil => rfl
  | cons item rest ih =>
    -- The values left by the first steps are the same, as their results are.
    simp only [List.map_cons, inSequence, result_andThen, alike item value, ih]

/-- A step that has the same result at every index is taken on each item in turn. -/
theorem result_forEach {step : Nat → α → Attempt ρ ε α} {single : α → Except ε α}
    (each : ∀ index item, (step index item).result = single item) (items : List α) :
    (forEach step items).result = items.mapM single := by
  -- The walk starts anywhere, so that the induction can go on behind the first item.
  suffices walk : ∀ index, (forEachFrom index step items).result = items.mapM single from walk 0
  induction items with
  | nil =>
    intro index
    rfl
  | cons item rest ih =>
    intro index
    have first := each index item
    rw [List.mapM_cons, ← first, ← ih (index + 1), forEachFrom]
    -- What the step makes of the item is looked at for its failure alone.
    generalize step index item = head
    obtain ⟨value, records, failure⟩ := head
    cases failure with
    -- The step fails on the item, and the walk ends with its failure.
    | some cause => rfl
    | none =>
      -- The first item is done, and the rest of the walk decides.
      generalize forEachFrom (index + 1) step rest = others
      obtain ⟨values, records', failure'⟩ := others
      cases failure' <;> rfl

end Attempt

/-! ### Runs over lists -/

/-- Each item on the right of two lists that correspond has one on the left. -/
theorem exists_of_forall₂_of_mem {related : α → β → Prop} {items : List α} {results : List β}
    (corresponding : List.Forall₂ related items results) {result : β} (member : result ∈ results) :
    ∃ item ∈ items, related item result := by
  induction corresponding with
  | nil => simp at member
  | @cons item _ rest _ here _ ih =>
    -- The result is the first one, and comes from the first item.
    rcases List.mem_cons.1 member with rfl | later
    · exact ⟨item, List.mem_cons_self, here⟩
    · -- It is a later one, and comes from a later item.
      obtain ⟨other, within, there⟩ := ih later
      exact ⟨other, List.mem_cons_of_mem _ within, there⟩

/-- A run over a list fares as a step on each item: it leaves what the step makes of the items, in
order, and fails only as the step fails on one of them. -/
structure ItemByItem (run : List α → Except ε (List α)) (step : α → Except ε α) : Prop where
  /-- Where the run succeeds, the step does on every item, and leaves the same. -/
  forall₂_of_ok : ∀ {items results}, run items = .ok results →
    List.Forall₂ (fun item result => step item = .ok result) items results
  /-- Where the run fails, the step fails on some item in the same way. -/
  exists_of_error : ∀ {items cause}, run items = .error cause →
    ∃ item ∈ items, step item = .error cause

namespace ItemByItem

variable {run nextRun : List α → Except ε (List α)} {step nextStep : α → Except ε α}

/-- A step on one item after the other fares as the step. -/
theorem mapM (step : α → Except ε α) : ItemByItem (List.mapM step) step where
  forall₂_of_ok := Except.mapM_eq_ok_iff.1
  exists_of_error := by
    intro items cause failed
    induction items with
    | nil => cases failed
    | cons item rest ih =>
      rw [List.mapM_cons] at failed
      -- The first item decides whether the others are looked at.
      cases first : step item with
      | error other =>
        rw [first] at failed
        cases failed
        exact ⟨item, List.mem_cons_self, first⟩
      | ok result =>
        -- The failure then comes from the rest, since the rest did not succeed either.
        cases others : rest.mapM step with
        | error other =>
          rw [first, others] at failed
          cases failed
          obtain ⟨later, member, same⟩ := ih others
          exact ⟨later, List.mem_cons_of_mem _ member, same⟩
        -- All items have a result, which is no failure.
        | ok results =>
          rw [first, others] at failed
          cases failed

/-- A run that changes nothing fares as the step that changes nothing. -/
theorem ok : ItemByItem (Except.ok : List α → Except ε (List α)) Except.ok where
  forall₂_of_ok := by
    rintro items results ⟨⟩
    exact List.forall₂_same.2 fun _ _ => rfl
  exists_of_error := by rintro items cause ⟨⟩

/-- Two runs one after the other fare as their steps one after the other. The list comes to the
second step only when the first is done with all items, and an item alone comes to it at once, but
the first failure of either is a failure of some item. -/
theorem bind (first : ItemByItem run step) (last : ItemByItem nextRun nextStep) :
    ItemByItem (fun items => run items >>= nextRun) (fun item => step item >>= nextStep) where
  forall₂_of_ok := by
    intro items results success
    obtain ⟨middle, begun, ended⟩ := Except.exists_of_bind_eq_ok success
    have before := first.forall₂_of_ok begun
    have after := last.forall₂_of_ok ended
    -- Item by item, what the first step leaves is what the second starts from.
    clear success begun ended
    induction before generalizing results with
    -- There are no items on either side.
    | nil =>
      cases after
      exact .nil
    -- The first item is made by the first step and then by the second one.
    | cons made _ ih =>
      cases after with
      | cons madeNext later =>
        refine .cons ?_ (ih later)
        rw [made]
        exact madeNext
  exists_of_error := by
    intro items cause failed
    cases begun : run items with
    -- The first run fails, and so does its step on some item.
    | error other =>
      rw [begun] at failed
      cases failed
      obtain ⟨item, member, same⟩ := first.exists_of_error begun
      refine ⟨item, member, ?_⟩
      rw [same]
      rfl
    | ok middle =>
      -- The item on which the second step fails is what the first made of an item of the list.
      rw [begun] at failed
      obtain ⟨changed, within, same⟩ := last.exists_of_error failed
      obtain ⟨item, member, made⟩ := exists_of_forall₂_of_mem (first.forall₂_of_ok begun) within
      refine ⟨item, member, ?_⟩
      rw [made]
      exact same

/-- A walk over a list fares as its step, if that comes to the same at every index. -/
theorem forEach {step : Nat → α → Attempt ρ ε α}
    (alike : ∀ index item, (step index item).result = (step 0 item).result) :
    ItemByItem (fun items => (Attempt.forEach step items).result)
      (fun item => (step 0 item).result) := by
  -- At every index the step has the result that it has at the first one.
  simp only [Attempt.result_forEach alike]
  exact mapM _

/-- Passes in sequence fare as their steps in sequence. -/
theorem inSequence {ι : Type} {pass : ι → List α → Attempt ρ ε (List α)}
    {single : ι → α → Except ε α}
    (each : ∀ number, ItemByItem (fun items => (pass number items).result) (single number))
    (numbers : List ι) :
    ItemByItem (fun items => (Attempt.inSequence (numbers.map pass) items).result)
      (fun item => numbers.foldlM (fun item number => single number item) item) := by
  induction numbers with
  | nil => exact ok
  | cons first rest ih =>
    -- The first pass goes over the whole list before the others begin.
    simp only [List.map_cons, Attempt.inSequence, Attempt.result_andThen, List.foldlM_cons]
    exact (each first).bind ih

/-- A list of one item fares as the step on that item. -/
theorem run_singleton (fares : ItemByItem run step) (item : α) :
    run [item] = (step item).map fun result => [result] := by
  cases alone : run [item] with
  -- The only item is the one on which the step fails.
  | error cause =>
    obtain ⟨same, member, failed⟩ := fares.exists_of_error alone
    obtain rfl := List.mem_singleton.1 member
    rw [failed]
    rfl
  | ok results =>
    -- There is one result, as there is one item.
    cases fares.forall₂_of_ok alone with
    | cons made others =>
      cases others
      rw [made]
      rfl

end ItemByItem

/-! ### Places do not matter -/

/-- A rename comes to the same at all addresses. -/
theorem RenameTable.result_convert (table : RenameTable) (address other : Address)
    (attributes : Attributes) :
    (table.convert address attributes).result = (table.convert other attributes).result := by
  -- The address goes into the record alone.
  unfold convert
  split <;> rfl

theorem RenameTable.result_convertLogRecord (table : RenameTable) (index : Nat)
    (record : LogRecord) :
    (table.convertLogRecord index record).result = (table.convertLogRecord 0 record).result := by
  unfold convertLogRecord
  rw [Attempt.result_map, Attempt.result_map, result_convert]

theorem SpanRule.result_convert (rule : SpanRule) (index : Nat) (span : Span) :
    (rule.convert index span).result = (rule.convert 0 span).result := by
  unfold convert
  -- A span in scope is renamed at one address or another.
  split
  · rw [Attempt.result_map, Attempt.result_map, RenameTable.result_convert]
  · -- A span out of scope is left alone.
    rfl

theorem EventRule.result_convert (rule : EventRule) (index : Nat) (span : Span) :
    (rule.convert index span).result = (rule.convert 0 span).result := by
  -- Both kinds of rule go through the events, and come to the same on each event of every span.
  cases rule with
  | renameEvents names =>
    -- An event has a new name or not, wherever it stands.
    have each (place position : Nat) (event : SpanEvent) :
        (renameEvent names (.here (.spanEvent place position)) event).result =
          (renameEvent names (.here (.spanEvent 0 0)) event).result := by
      unfold renameEvent
      split <;> rfl
    simp only [convert, Attempt.result_map]
    rw [Attempt.result_forEach (each index), Attempt.result_forEach (each 0)]
  | renameAttributes spans events table =>
    -- An event is in scope or not, wherever it stands.
    have each (place position : Nat) (event : SpanEvent) :
        (convertAttributes events table (.here (.spanEvent place position)) event).result =
          (convertAttributes events table (.here (.spanEvent 0 0)) event).result := by
      unfold convertAttributes
      split
      · rw [Attempt.result_map, Attempt.result_map, RenameTable.result_convert]
      · rfl
    simp only [convert]
    split
    · rw [Attempt.result_map, Attempt.result_map, Attempt.result_forEach (each index),
        Attempt.result_forEach (each 0)]
    · rfl

/-- A pass over spans fares as its rules do on each span. -/
theorem SpanPass.itemByItem_convert (pass : SpanPass) :
    ItemByItem (fun spans => (pass.convert spans).result) fun span =>
      ((Attempt.inSequence (pass.rules.map (·.convert 0)) span).andThen
        (Attempt.inSequence (pass.events.map (·.convert 0)))).result := by
  rw [pass.convert_eq]
  refine ItemByItem.forEach ?_
  intro index span
  -- The rules for spans come to the same at every index.
  rw [Attempt.result_andThen, Attempt.result_andThen,
    Attempt.result_inSequence_congr fun rule span => SpanRule.result_convert rule index span]
  -- The events are converted in whatever span the rules have left.
  congr 1
  funext changed
  exact Attempt.result_inSequence_congr
    (fun rule span => EventRule.result_convert rule index span) pass.events changed

/-- A step over log records fares as its tables do on each record. -/
theorem VersionStep.itemByItem_convertLogs (step : VersionStep) :
    ItemByItem (fun records => (step.convertLogs records).result) fun record =>
      (Attempt.inSequence (step.logs.map fun table => table.convertLogRecord 0) record).result := by
  refine ItemByItem.forEach ?_
  intro index record
  -- Records are taken through the tables at every index alike.
  exact Attempt.result_inSequence_congr
    (fun table record => RenameTable.result_convertLogRecord table index record) step.logs record

/-! ### From version to version -/

/-- A conversion of lists treats each item as it would be treated alone. -/
structure ConvertsEach (convert : List α → Conversion (List α)) : Prop where
  /-- It succeeds on a list exactly if it does on each item alone. -/
  failure_eq_none_iff : ∀ items, (convert items).failure = none ↔
    ∀ item ∈ items, (convert [item]).failure = none
  /-- Where it succeeds, it leaves, in order, what it leaves of each item alone. -/
  value : ∀ items, (convert items).failure = none →
    List.Forall₂ (fun item result => (convert [item]).value = [result]) items
      (convert items).value
  /-- Where it fails, it fails as it does on some item alone. -/
  failure : ∀ items cause, (convert items).failure = some cause →
    ∃ item ∈ items, (convert [item]).failure = some cause

/-- A conversion that fares as some step on each item treats each item as it would be treated
alone. -/
theorem ItemByItem.convertsEach {convert : List α → Conversion (List α)}
    {step : α → Except ConversionError α}
    (fares : ItemByItem (fun items => (convert items).result) step) : ConvertsEach convert := by
  -- Alone, an item fares as the step does on it.
  have alone (item : α) : (convert [item]).result = (step item).map fun result => [result] :=
    fares.run_singleton item
  -- A step that succeeds leaves the item as a list of its own.
  have succeeds {item result : α} (made : step item = .ok result) :
      (convert [item]).failure = none ∧ (convert [item]).value = [result] := by
    refine Attempt.result_eq_ok_iff.1 ?_
    rw [alone, made]
    rfl
  -- A failure on the list is one of the step on some item, and of the item alone.
  have fails {items : List α} {cause : ConversionError}
      (failed : (convert items).failure = some cause) :
      ∃ item ∈ items, (convert [item]).failure = some cause := by
    obtain ⟨item, member, same⟩ := fares.exists_of_error (Attempt.result_eq_error_iff.2 failed)
    refine ⟨item, member, Attempt.result_eq_error_iff.1 ?_⟩
    rw [alone, same]
    rfl
  have leaves {items : List α} (success : (convert items).failure = none) :=
    fares.forall₂_of_ok (Attempt.result_eq_ok_iff.2 ⟨success, rfl⟩)
  refine ⟨?_, ?_, ?_⟩
  · -- The list succeeds if each item does, and the other way round.
    intro items
    constructor
    · intro success
      have both := (leaves success).imp fun item result made => succeeds made
      exact ((List.forall₂_and_left _ _).1 both).1
    · intro each
      -- A failure on the list would be one on some item alone.
      cases failed : (convert items).failure with
      | none => rfl
      | some cause =>
        obtain ⟨item, member, failedAlone⟩ := fails failed
        rw [each item member] at failedAlone
        cases failedAlone
  · -- Each item is left as it is left alone.
    intro items success
    exact (leaves success).imp fun item result made => (succeeds made).2
  · -- The failure is that of some item.
    intro items cause failed
    exact fails failed

namespace Schema

/-- Spans and log records are converted in a list as each would be alone: the list succeeds exactly
if every item does, it is left with what becomes of each item, and it fails as some item fails. The
list takes one version after the other with all its items, and an item alone takes all its versions
at once. -/
theorem convertsEach_spans_logs (schema : Schema) (start : Version) :
    ConvertsEach (schema.convertSpans start) ∧ ConvertsEach (schema.convertLogs start) := by
  constructor
  · -- Spans go through one pass for each pending step.
    rw [convertSpans_eq]
    have each (step : VersionStep) := step.spans.itemByItem_convert
    exact (ItemByItem.inSequence each (schema.pending start)).convertsEach
  · -- Log records do as well.
    rw [convertLogs_eq]
    have each (step : VersionStep) := step.itemByItem_convertLogs
    exact (ItemByItem.inSequence each (schema.pending start)).convertsEach

end Schema

end SchemaUplift
