import Mathlib.Algebra.Group.Basic
import SchemaUplift.Proofs.Attempt
import SchemaUplift.Request.Conversion

/-! The counts that a conversion keeps on its way through a request. They do not interfere with what
is changed, and after a success they are the counts of the request. -/

namespace SchemaUplift

/-! ### Conversion without counts -/

namespace RequestConversion

/-- What a conversion does to the resource of a batch. -/
def applyToResource (conversion : RequestConversion) (index : Nat) (start : Version)
    (resource : Option Resource) : Conversion (Option Resource) :=
  match resource with
  | none => .unchanged none
  | some resource =>
    ((conversion.schema.convertResource start resource).mapRecords (.within (.resource index))).map
      some

section Batches

variable {α : Type}

/-- What a conversion does to a scope batch: to its items, and then to its URL. -/
def applyToScope (conversion : RequestConversion)
    (convert : Version → List α → Conversion (List α)) (inherited : Version) (origin : Origin)
    (scope : ScopeBatch α) : Conversion (ScopeBatch α) :=
  let start := conversion.versionOf scope.schemaUrl inherited
  Attempt.inSequence
    [fun scope => ((convert start scope.items).mapRecords (.within origin)).map
        fun items => { scope with items },
      fun scope => (conversion.redirect origin start scope.schemaUrl).map
        fun schemaUrl => { scope with schemaUrl }] scope

/-- What a conversion does to a resource batch: to its resource, then to its scope batches, and last
to its URL. -/
def applyToBatch (conversion : RequestConversion)
    (convert : Version → List α → Conversion (List α)) (index : Nat) (batch : ResourceBatch α) :
    Conversion (ResourceBatch α) :=
  let start := conversion.versionOf batch.schemaUrl conversion.fallback
  Attempt.inSequence
    [fun batch => (conversion.applyToResource index start batch.resource).map
        fun resource => { batch with resource },
      fun batch => (Attempt.forEach
        (fun scope => conversion.applyToScope convert start (.scope index scope))
        batch.scopes).map fun scopes => { batch with scopes },
      fun batch => (conversion.redirect (.resource index) start batch.schemaUrl).map
        fun schemaUrl => { batch with schemaUrl }] batch

/-- What a conversion does to the batches of a request, in order, until one fails. -/
def applyToBatches (conversion : RequestConversion)
    (convert : Version → List α → Conversion (List α)) :
    List (ResourceBatch α) → Conversion (List (ResourceBatch α)) :=
  Attempt.forEach (conversion.applyToBatch convert)

end Batches

/-- What a conversion does to a request. -/
def applyTo (conversion : RequestConversion) : ExportRequest → Conversion ExportRequest
  | .traces batches =>
    (conversion.applyToBatches conversion.schema.convertSpans batches).map .traces
  | .metrics batches =>
    (conversion.applyToBatches conversion.schema.convertMetrics batches).map .metrics
  | .logs batches => (conversion.applyToBatches conversion.schema.convertLogs batches).map .logs

end RequestConversion

/-! ### Counts of requests -/

/-- The number of batches with a resource. -/
def ResourceBatch.resourceCount {α : Type} (batches : List (ResourceBatch α)) : Nat :=
  batches.countP (·.resource.isSome)

/-- The number of items in all scopes of some batches. -/
def ResourceBatch.itemCount {α : Type} (batches : List (ResourceBatch α)) : Nat :=
  (batches.flatMap (·.scopes)).foldr (fun scope count => scope.items.length + count) 0

/-- The counts of a request: its resources, and its spans, metrics or log records. -/
def ExportRequest.counts : ExportRequest → Stats
  | .traces batches =>
    ⟨.ofNat (ResourceBatch.resourceCount batches), .ofNat (ResourceBatch.itemCount batches), 0, 0⟩
  | .metrics batches =>
    ⟨.ofNat (ResourceBatch.resourceCount batches), 0, .ofNat (ResourceBatch.itemCount batches), 0⟩
  | .logs batches =>
    ⟨.ofNat (ResourceBatch.resourceCount batches), 0, 0, .ofNat (ResourceBatch.itemCount batches)⟩

/-- The items of all scopes together are as many as are counted. -/
theorem ResourceBatch.length_items {α : Type} (batches : List (ResourceBatch α)) :
    (batches.flatMap fun batch => batch.scopes.flatMap (·.items)).length = itemCount batches := by
  -- The items of the batches are those of their scopes, one scope after the other.
  rw [itemCount, ← List.flatMap_assoc]
  -- The induction counts the items of one scope after the other.
  induction batches.flatMap (·.scopes) with
  | nil => rfl
  | cons scope rest ih => rw [List.flatMap_cons, List.length_append, ih, List.foldr_cons]

/-- The resources of two lists of batches add up. -/
theorem ResourceBatch.resourceCount_append {α : Type} (first second : List (ResourceBatch α)) :
    resourceCount (first ++ second) = resourceCount first + resourceCount second :=
  List.countP_append

/-- The items of two lists of batches add up. -/
theorem ResourceBatch.itemCount_append {α : Type} (first second : List (ResourceBatch α)) :
    itemCount (first ++ second) = itemCount first + itemCount second := by
  -- The items of two lists are counted as one list of items.
  simp only [← length_items, List.flatMap_append, List.length_append]

/-! ### Counting along the way -/

attribute [ext] Stats

namespace Stats

instance : Zero Stats := ⟨zero⟩

/-- Counts are added kind by kind, also where they wrap around. -/
instance : AddCommMonoid Stats where
  add_assoc _ _ _ := Stats.ext (UInt64.add_assoc _ _ _) (UInt64.add_assoc _ _ _)
    (UInt64.add_assoc _ _ _) (UInt64.add_assoc _ _ _)
  zero_add _ := Stats.ext (UInt64.zero_add _) (UInt64.zero_add _) (UInt64.zero_add _)
    (UInt64.zero_add _)
  add_zero _ := Stats.ext (UInt64.add_zero _) (UInt64.add_zero _) (UInt64.add_zero _)
    (UInt64.add_zero _)
  add_comm _ _ := Stats.ext (UInt64.add_comm _ _) (UInt64.add_comm _ _) (UInt64.add_comm _ _)
    (UInt64.add_comm _ _)
  nsmul := nsmulRec

/-- A number of resources, counted. -/
def ofResources (number : Nat) : Stats := ⟨.ofNat number, 0, 0, 0⟩

/-- A number of spans, counted. -/
def ofSpans (number : Nat) : Stats := ⟨0, .ofNat number, 0, 0⟩

/-- A number of metrics, counted. -/
def ofMetrics (number : Nat) : Stats := ⟨0, 0, .ofNat number, 0⟩

/-- A number of log records, counted. -/
def ofLogRecords (number : Nat) : Stats := ⟨0, 0, 0, .ofNat number⟩

/-- Numbers of resources may be added before they are counted. -/
theorem ofResources_add (first second : Nat) :
    ofResources (first + second) = ofResources first + ofResources second :=
  Stats.ext (UInt64.ofNat_add _ _) rfl rfl rfl

/-- Items are counted by their number: as many are added as `ofItems` tells. -/
structure CountsBy {α : Type} (count : Stats → List α → Stats) (ofItems : Nat → Stats) : Prop where
  /-- What is added depends on the number alone. -/
  count_eq : ∀ stats items, count stats items = stats + ofItems items.length
  /-- Numbers may be added before they are counted. -/
  ofItems_add : ∀ first second, ofItems (first + second) = ofItems first + ofItems second
  /-- No items add nothing. -/
  ofItems_zero : ofItems 0 = 0

/-- The counts after the resource of a batch. -/
def pastResource (stats : Stats) (resource : Option Resource) : Stats :=
  if resource.isSome then stats.countResource else stats

/-- The counts after a resource batch: its resource and then the items of one scope after the
other. -/
def pastBatch {α : Type} (count : Stats → List α → Stats) (stats : Stats)
    (batch : ResourceBatch α) : Stats :=
  batch.scopes.foldl (fun stats scope => count stats scope.items)
    (stats.pastResource batch.resource)

variable {α : Type} {count : Stats → List α → Stats} {ofItems : Nat → Stats}

/-- Spans are counted as spans. -/
theorem countsBy_countSpans : CountsBy countSpans ofSpans where
  count_eq _ _ := Stats.ext (UInt64.add_zero _).symm rfl (UInt64.add_zero _).symm
    (UInt64.add_zero _).symm
  ofItems_add _ _ := Stats.ext rfl (UInt64.ofNat_add _ _) rfl rfl
  ofItems_zero := rfl

/-- Metrics are counted as metrics. -/
theorem countsBy_countMetrics : CountsBy countMetrics ofMetrics where
  count_eq _ _ := Stats.ext (UInt64.add_zero _).symm (UInt64.add_zero _).symm rfl
    (UInt64.add_zero _).symm
  ofItems_add _ _ := Stats.ext rfl rfl (UInt64.ofNat_add _ _) rfl
  ofItems_zero := rfl

/-- Log records are counted as log records. -/
theorem countsBy_countLogRecords : CountsBy countLogRecords ofLogRecords where
  count_eq _ _ := Stats.ext (UInt64.add_zero _).symm (UInt64.add_zero _).symm
    (UInt64.add_zero _).symm rfl
  ofItems_add _ _ := Stats.ext rfl rfl rfl (UInt64.ofNat_add _ _)
  ofItems_zero := rfl

/-- Going past a resource batch adds its resource and the items of its scopes. -/
theorem pastBatch_eq (counts : CountsBy count ofItems) (stats : Stats) (batch : ResourceBatch α) :
    stats.pastBatch count batch = stats +
      (ofResources (ResourceBatch.resourceCount [batch]) +
        ofItems (ResourceBatch.itemCount [batch])) := by
  have scopes (stats : Stats) (scopes : List (ScopeBatch α)) :
      scopes.foldl (fun stats scope => count stats scope.items) stats =
        stats + ofItems (scopes.foldr (fun scope number => scope.items.length + number) 0) := by
    -- The induction counts the items of the first scope before all others.
    induction scopes generalizing stats with
    -- Without scopes no items are added.
    | nil => exact (counts.ofItems_zero ▸ add_zero stats).symm
    | cons scope rest ih =>
      -- The items of the first scope and of the others may be added in either grouping.
      rw [List.foldl_cons, ih, counts.count_eq, List.foldr_cons, counts.ofItems_add, add_assoc]
  have resource : stats.pastResource batch.resource =
      stats + ofResources (ResourceBatch.resourceCount [batch]) := by
    -- One resource is counted, or none.
    cases present : batch.resource with
    | none =>
      -- Without a resource the counts stay.
      simp only [pastResource, ResourceBatch.resourceCount, List.countP_singleton, present]
      exact (add_zero stats).symm
    | some resource =>
      -- With one they grow by one.
      simp only [pastResource, ResourceBatch.resourceCount, List.countP_singleton, present]
      exact Stats.ext rfl (UInt64.add_zero _).symm (UInt64.add_zero _).symm
        (UInt64.add_zero _).symm
  -- The resource is counted first, and the scopes from there on.
  rw [pastBatch, scopes, resource, add_assoc, ResourceBatch.itemCount, List.flatMap_singleton]

/-- Going past some resource batches adds their resources and the items of all their scopes. -/
theorem foldl_pastBatch (counts : CountsBy count ofItems) (stats : Stats)
    (batches : List (ResourceBatch α)) :
    batches.foldl (pastBatch count) stats = stats +
      (ofResources (ResourceBatch.resourceCount batches) +
        ofItems (ResourceBatch.itemCount batches)) := by
  -- The induction goes past the first batch, whatever was counted before it.
  induction batches generalizing stats with
  | nil =>
    -- No batches leave the counts as they are.
    have none : ofItems (ResourceBatch.itemCount ([] : List (ResourceBatch α))) = 0 :=
      counts.ofItems_zero
    rw [none, add_zero]
    exact (add_zero stats).symm
  | cons batch rest ih =>
    -- The first batch is counted apart from the others.
    have resources : ResourceBatch.resourceCount (batch :: rest) =
        ResourceBatch.resourceCount [batch] + ResourceBatch.resourceCount rest :=
      ResourceBatch.resourceCount_append [batch] rest
    have items : ResourceBatch.itemCount (batch :: rest) =
        ResourceBatch.itemCount [batch] + ResourceBatch.itemCount rest :=
      ResourceBatch.itemCount_append [batch] rest
    -- What the first batch adds comes before what the others add, kind by kind.
    rw [List.foldl_cons, ih, pastBatch_eq counts, resources, items, ofResources_add,
      counts.ofItems_add, add_assoc, add_add_add_comm]

end Stats

/-! ### Conversion with counts -/

namespace RequestConversion

open Attempt (Tracks)

section Batches

variable {α : Type} (conversion : RequestConversion)
  (convert : Version → List α → Conversion (List α)) (count : Stats → List α → Stats)

/-- A resource is counted on the way. -/
theorem tracks_convertResource (index : Nat) (start : Version) (stats : Stats)
    (resource : Option Resource) :
    Tracks (conversion.convertResource index start stats resource)
      (conversion.applyToResource index start resource) (stats.pastResource resource) := by
  -- The counts grow before the conversion, so that a failure does not take them back.
  cases resource with
  | none => exact ⟨rfl, fun _ => rfl⟩
  | some resource => exact ⟨rfl, fun _ => rfl⟩

/-- The items of a scope batch are counted on the way. -/
theorem tracks_convertScope (inherited : Version) (origin : Origin) (stats : Stats)
    (scope : ScopeBatch α) :
    Tracks (conversion.convertScope convert count inherited origin stats scope)
      (conversion.applyToScope convert inherited origin scope) (count stats scope.items) := by
  -- The items are counted first, and neither step touches the counts from then on.
  exact .andThen (.map_pair _ _ _) (.andThen (.map_pair _ _ _) (.unchanged _ _))

/-- The resource of a batch and the items of its scopes are counted on the way. -/
theorem tracks_convertBatch (index : Nat) (stats : Stats) (batch : ResourceBatch α) :
    Tracks (conversion.convertBatch convert count index stats batch)
      (conversion.applyToBatch convert index batch) (stats.pastBatch count batch) := by
  -- All three steps start from the version of the batch.
  let start := conversion.versionOf batch.schemaUrl conversion.fallback
  have resource := conversion.tracks_convertResource index start stats batch.resource
  have scopes := Tracks.forEachWith
    (fun place => conversion.tracks_convertScope convert count start (.scope index place))
    (stats.pastResource batch.resource) batch.scopes
  -- The first step changes nothing but the resource, and the second one nothing but the scopes.
  let changed := (conversion.applyToResource index start batch.resource).value
  refine .andThen (resource.map fun resource => { batch with resource }) ?_
  refine .andThen (scopes.map fun scopes => { batch with resource := changed, scopes }) ?_
  exact .andThen (.map_pair _ _ _) (.unchanged _ _)

/-- The resources of the batches of a request and the items of all their scopes are counted on the
way. -/
theorem tracks_convertBatches {ofItems : Nat → Stats} (counts : Stats.CountsBy count ofItems)
    (batches : List (ResourceBatch α)) :
    Tracks (conversion.convertBatches convert count batches)
      (conversion.applyToBatches convert batches)
      (.ofResources (ResourceBatch.resourceCount batches) +
        ofItems (ResourceBatch.itemCount batches)) := by
  -- The counts start from zero and go past one batch after the other.
  have walk := Tracks.forEachWith (conversion.tracks_convertBatch convert count) .zero batches
  have none : Stats.zero = 0 := rfl
  rw [Stats.foldl_pastBatch counts, none, zero_add] at walk
  exact walk

end Batches

variable (conversion : RequestConversion) (request : ExportRequest)

/-- What a conversion does to a request does not depend on the counts, which after a success are
those of the request. -/
theorem tracks_run :
    Tracks (conversion.run request) (conversion.applyTo request) request.counts := by
  -- The signals differ in the items that are counted, and in how they are converted.
  cases request with
  -- Of a request for traces the resources and spans are counted.
  | traces batches =>
    have total : .ofResources (ResourceBatch.resourceCount batches) +
        .ofSpans (ResourceBatch.itemCount batches) = (ExportRequest.traces batches).counts :=
      Stats.ext (UInt64.add_zero _) (UInt64.zero_add _) rfl rfl
    exact total ▸ (conversion.tracks_convertBatches conversion.schema.convertSpans .countSpans
      Stats.countsBy_countSpans batches).map ExportRequest.traces
  -- Of a request for metrics the resources and metrics are counted.
  | metrics batches =>
    have total : .ofResources (ResourceBatch.resourceCount batches) +
        .ofMetrics (ResourceBatch.itemCount batches) = (ExportRequest.metrics batches).counts :=
      Stats.ext (UInt64.add_zero _) rfl (UInt64.zero_add _) rfl
    exact total ▸ (conversion.tracks_convertBatches conversion.schema.convertMetrics .countMetrics
      Stats.countsBy_countMetrics batches).map ExportRequest.metrics
  -- Of a request for logs the resources and log records are counted.
  | logs batches =>
    have total : .ofResources (ResourceBatch.resourceCount batches) +
        .ofLogRecords (ResourceBatch.itemCount batches) = (ExportRequest.logs batches).counts :=
      Stats.ext (UInt64.add_zero _) rfl rfl (UInt64.zero_add _)
    exact total ▸ (conversion.tracks_convertBatches conversion.schema.convertLogs .countLogRecords
      Stats.countsBy_countLogRecords batches).map ExportRequest.logs

/-- A conversion does to a request what it does without counting. -/
theorem convert_eq_applyTo : conversion.convert request = conversion.applyTo request :=
  (conversion.tracks_run request).map_snd

/-- A caller is told the counts of the request, or the failure. -/
theorem result_eq_outcome :
    conversion.result request = (conversion.convert request).outcome request.counts := by
  have tracks := conversion.tracks_run request
  -- The failure is the same with counts and without.
  rw [convert_eq_applyTo, result, Attempt.outcome, Attempt.outcome, tracks.failure_eq]
  -- The counts are looked at after a success only.
  cases failed : (conversion.applyTo request).failure with
  -- A failure is told as it is.
  | some cause => rfl
  -- A success has counted the whole request.
  | none => exact congrArg Except.ok (tracks.fst_value (tracks.failure_eq.trans failed))

end RequestConversion

end SchemaUplift
