import SchemaUplift.Proofs.Request.Placement

/-! Journals of conversions that did not see the whole request, once they are merged into the
journal of the request: rolling them back there is rolling them back in the place that they come
from. -/

namespace SchemaUplift

/-! ### Rolling back in place -/

section Batches

variable {α : Type}

/-- Whether an origin names a resource that is present, or a scope batch that exists. -/
def Origin.IsIn (origin : Origin) (batches : List (ResourceBatch α)) : Prop :=
  match origin with
  | .here => False
  | .resource index => ∃ batch, batches[index]? = some batch ∧ batch.resource ≠ none
  | .scope index position => ∃ batch, batches[index]? = some batch ∧ position < batch.scopes.length

/-- Rolls back a journal on the resource, or on the items of the scope batch, that an origin names,
if there is one; the rest of the batches is left alone. -/
def rollbackAt? [RollbackTarget (List α)] (batches : List (ResourceBatch α)) (log : Journal) :
    Origin → Option (List (ResourceBatch α) × Nat)
  | .here => none
  | .resource index => do
    let batch ← batches[index]?
    let (resource, restored) := log.rollback (← batch.resource)
    return (batches.set index { batch with resource := some resource }, restored)
  | .scope index position => do
    let batch ← batches[index]?
    let scope ← batch.scopes[position]?
    let (items, restored) := log.rollback scope.items
    return (batches.set index
      { batch with scopes := batch.scopes.set position { scope with items } }, restored)

end Batches

namespace ExportRequest

/-- Whether an origin names a resource of the request that is present, or a scope batch of it. -/
def Has (request : ExportRequest) (origin : Origin) : Prop :=
  match request with
  | .traces batches => origin.IsIn batches
  | .metrics batches => origin.IsIn batches
  | .logs batches => origin.IsIn batches

/-- Rolls back a journal on the resource, the spans, the metrics or the log records that an origin
names, if there are such; the rest of the request is left alone. -/
def rollbackAt? (request : ExportRequest) (log : Journal) (origin : Origin) :
    Option (ExportRequest × Nat) :=
  match request with
  | .traces batches => (SchemaUplift.rollbackAt? batches log origin).map (Prod.map .traces id)
  | .metrics batches => (SchemaUplift.rollbackAt? batches log origin).map (Prod.map .metrics id)
  | .logs batches => (SchemaUplift.rollbackAt? batches log origin).map (Prod.map .logs id)

end ExportRequest

/-! ### Rebased records -/

section Batches

variable {α : Type} [RollbackTarget (List α)] {batches : List (ResourceBatch α)}

/-- The resource of a batch carries its records over to the batches. -/
theorem carries_resource_set {index : Nat} (within : index < batches.length)
    (batch : ResourceBatch α) :
    Carries (fun resource => batches.set index { batch with resource := some resource })
      (Address.within (.resource index)) Address.IsLocal := by
  -- The resource that was put there is found there, and the rest of the batch stays around it.
  refine carries_resource fun resource => ?_
  simp [resourceAt?, Part.item?, ResourceBatch.resource?, Part.within, within]

/-- The items of a scope batch carry their records over to the batches. -/
theorem carries_items_set [LocalTarget (List α)] {index : Nat} (within : index < batches.length)
    {batch : ResourceBatch α} {position : Nat} (inside : position < batch.scopes.length)
    (scope : ScopeBatch α) :
    Carries (fun items => batches.set index
        { batch with scopes := batch.scopes.set position { scope with items } })
      (Address.within (.scope index position)) Address.IsLocal := by
  -- As with a resource, the items that were put there are found there.
  refine carries_items fun items => ?_
  simp [itemsAt?, scopeAt?, Part.item?, ResourceBatch.scope?, ScopeBatch.itemsPart, Part.within,
    Part.map, within, inside]

/-- Rolling back local records, seen from the batches, is rolling them back in their place. -/
theorem rollbackAt?_eq [LocalTarget (List α)] {origin : Origin} (named : origin.IsIn batches)
    {log : Journal} (isLocal : ∀ record ∈ log.records, record.address.IsLocal) :
    rollbackAt? batches log origin =
      some ((Journal.mk (log.records.map (JournalEntry.within origin))).rollback batches) := by
  -- What the origin names is a part of the batches, which are the whole around it.
  match origin, named with
  | .resource index, ⟨batch, located, present⟩ =>
    -- The batch has a resource, which is what the origin names.
    obtain ⟨resource, held⟩ := Option.ne_none_iff_exists'.1 present
    obtain ⟨within, rfl⟩ := List.getElem?_eq_some_iff.1 located
    -- Putting back the resource that is there changes nothing.
    have same : batches.set index { batches[index] with resource := some resource } = batches := by
      rw [← held]
      exact List.set_getElem_self within
    have rolledBack := (carries_resource_set within batches[index]).rollback isLocal resource
    rw [same] at rolledBack
    simp only [rollbackAt?, located, held, Option.bind_eq_bind, Option.bind_some]
    exact congrArg some rolledBack.symm
  | .scope index position, ⟨batch, located, inside⟩ =>
    obtain ⟨within, rfl⟩ := List.getElem?_eq_some_iff.1 located
    -- The scope batch exists, and its items are what the origin names.
    have found := List.getElem?_eq_getElem inside
    -- Putting back the scope batch that is there changes nothing.
    have same : batches.set index { batches[index] with
        scopes := batches[index].scopes.set position batches[index].scopes[position] } =
          batches := by
      rw [List.set_getElem_self inside]
      exact List.set_getElem_self within
    have rolledBack := (carries_items_set within inside batches[index].scopes[position]).rollback
      isLocal batches[index].scopes[position].items
    rw [same] at rolledBack
    simp only [rollbackAt?, located, found, Option.bind_eq_bind, Option.bind_some]
    exact congrArg some rolledBack.symm

end Batches

namespace ExportRequest

/-- Rolling back local records, seen from the request, is rolling them back in their place. -/
theorem rollbackAt?_eq {request : ExportRequest} {origin : Origin} (named : request.Has origin)
    {log : Journal} (isLocal : ∀ record ∈ log.records, record.address.IsLocal) :
    request.rollbackAt? log origin =
      some ((Journal.mk (log.records.map (JournalEntry.within origin))).rollback request) := by
  -- A request of any signal carries the records of its batches over as they are.
  have carried {τ : Type} [RollbackTarget τ] {whole : τ → ExportRequest}
      (carries : Carries whole id fun _ => True) (records : List JournalEntry) (batches : τ) :
      ((Journal.mk records).rollback batches).map whole id =
        (Journal.mk records).rollback (whole batches) := by
    -- Batches find everything at the addresses of the request, so no record is left out.
    have everywhere : ∀ record ∈ records, True := fun _ _ => trivial
    have rolledBack := carries.rollback everywhere batches
    rw [JournalEntry.relocate_id, List.map_id] at rolledBack
    exact rolledBack.symm
  -- The signals differ in how the request holds its batches.
  cases request with
  | traces batches =>
    rw [rollbackAt?, SchemaUplift.rollbackAt?_eq named isLocal, Option.map_some,
      carried carries_traces]
  | metrics batches =>
    rw [rollbackAt?, SchemaUplift.rollbackAt?_eq named isLocal, Option.map_some,
      carried carries_metrics]
  | logs batches =>
    rw [rollbackAt?, SchemaUplift.rollbackAt?_eq named isLocal, Option.map_some,
      carried carries_logs]

/-- Rolling back a journal that local records were merged into, seen from the place they come from,
is rolling these back in their place and then the journal on what that leaves; where journals are
merged as they are, the one merged in is rolled back first. The counts add up. -/
theorem rollback_mergeWithin (request : ExportRequest) (log other : Journal) :
    (∀ origin, request.Has origin → (∀ record ∈ other.records, record.address.IsLocal) →
      ∃ undone restored, request.rollbackAt? other origin = some (undone, restored) ∧
        (log.mergeWithin other origin).rollback request =
          ((log.rollback undone).1, (log.rollback undone).2 + restored)) ∧
    ∀ {τ : Type} [RollbackTarget τ] (target : τ),
      (log.merge other).rollback target =
        ((log.rollback (other.rollback target).1).1,
          (log.rollback (other.rollback target).1).2 + (other.rollback target).2) := by
  -- A journal that another one was merged into ends with the records of that one.
  refine ⟨fun origin named isLocal => ⟨_, _, rollbackAt?_eq named isLocal, ?_⟩, ?_⟩
  · -- Rebased records follow the journal, and are what is rolled back in place.
    exact Journal.rollback_append log.records _ request
  · -- Records merged as they are follow the journal as well.
    exact Journal.rollback_append log.records other.records

/-- A request in which the metrics of one scope were merged. -/
def mergedMetrics : ExportRequest :=
  .metrics [⟨some ⟨[⟨"host.name", .string "a"⟩], 0⟩, "",
    [⟨none, "", [⟨"disk.io", "", "", [], none⟩]⟩]⟩]

/-- The records of the scope: one of its metrics was given a new name, and later the list was
replaced. One more record names something that the scope does not have. -/
def mergedRecords : Journal :=
  ⟨[.renamedName (.here (.metric 1)) "disk.write", .renamedName (.here (.spanEvent 0 0)) "start",
    .replacedMetrics (.here .metricList)
      [⟨"disk.read", "", "", [], none⟩, ⟨"disk.writes", "", "", [], none⟩]]⟩

/-- The second metric is there to get its name back only after the list is put back. -/
theorem rollback_mergeWithin_mergedMetrics :
    mergedMetrics.Has (.scope 0 0) ∧
    (∀ record ∈ mergedRecords.records, record.address.IsLocal) ∧
    ∃ undone, mergedMetrics.rollbackAt? mergedRecords (.scope 0 0) = some (undone, 2) ∧
      ∀ log : Journal, (log.mergeWithin mergedRecords (.scope 0 0)).rollback mergedMetrics =
        ((log.rollback undone).1, (log.rollback undone).2 + 2) := by
  -- The scope is there, and the records name what is in it or nothing at all.
  have named : mergedMetrics.Has (.scope 0 0) := ⟨_, rfl, by decide⟩
  have isLocal : ∀ record ∈ mergedRecords.records, record.address.IsLocal := by
    simp [mergedRecords, JournalEntry.address, Address.IsLocal, Address.here]
  refine ⟨named, isLocal, _, rfl, fun log => ?_⟩
  -- The theorem leaves open what is restored, which evaluation tells.
  obtain ⟨undone, restored, found, rolledBack⟩ :=
    (rollback_mergeWithin mergedMetrics log mergedRecords).1 (.scope 0 0) named isLocal
  obtain ⟨rfl, rfl⟩ := Prod.mk.inj (Option.some.inj found)
  exact rolledBack

end ExportRequest

end SchemaUplift
