import SchemaUplift.Proofs.Journal.Reversal
import SchemaUplift.Request.Conversion

/-! The places that resources and items have in a request: what is changed there is undone on the
request by the same records, with addresses seen from the request. -/

namespace SchemaUplift

/-! ### Telemetry on its own -/

/-- The address of something other than a schema URL, in whatever was handed over. -/
def Address.IsLocal (address : Address) : Prop :=
  address.origin = .here ∧ address.entity ≠ .schemaUrl

/-- Telemetry that is handed over on its own: it finds things at local addresses alone, and has no
schema URL. -/
class LocalTarget (τ : Type) [RollbackTarget τ] : Prop where
  /-- Attributes are found at local addresses. -/
  attributes? : ∀ {value : τ} {address part},
    RollbackTarget.attributes? value address = some part → address.IsLocal
  /-- Names are found at local addresses. -/
  name? : ∀ {value : τ} {address part},
    RollbackTarget.name? value address = some part → address.IsLocal
  /-- Metrics are found at local addresses. -/
  metric? : ∀ {value : τ} {address part},
    RollbackTarget.metric? value address = some part → address.IsLocal
  /-- Lists of metrics are found at local addresses. -/
  metrics? : ∀ {value : τ} {address part},
    RollbackTarget.metrics? value address = some part → address.IsLocal
  /-- There are no schema URLs. -/
  schemaUrl? : ∀ (value : τ) (address), RollbackTarget.schemaUrl? value address = none

instance : LocalTarget Resource where
  attributes? found := by
    -- A resource is found at the one address of a resource that was handed over.
    simp only [RollbackTarget.attributes?] at found
    split at found
    · exact ⟨rfl, nofun⟩
    · contradiction
  name? := nofun
  metric? := nofun
  metrics? := nofun
  schemaUrl? _ _ := rfl

instance : LocalTarget (List Span) where
  attributes? found := by
    -- Attributes are those of a span or of one of its events.
    simp only [RollbackTarget.attributes?] at found
    split at found
    · exact ⟨rfl, nofun⟩
    · exact ⟨rfl, nofun⟩
    · contradiction
  name? found := by
    -- A span event is the only thing in a list of spans whose name is looked up.
    simp only [RollbackTarget.name?] at found
    split at found
    · exact ⟨rfl, nofun⟩
    · contradiction
  metric? := nofun
  metrics? := nofun
  schemaUrl? _ _ := rfl

instance : LocalTarget (List Metric) where
  attributes? found := by
    -- Attributes are those of a data point.
    simp only [RollbackTarget.attributes?] at found
    split at found
    · exact ⟨rfl, nofun⟩
    · contradiction
  name? found := by
    simp only [RollbackTarget.name?] at found
    split at found
    · exact ⟨rfl, nofun⟩
    · contradiction
  metric? found := by
    simp only [RollbackTarget.metric?] at found
    split at found
    · exact ⟨rfl, nofun⟩
    · contradiction
  metrics? found := by
    simp only [RollbackTarget.metrics?] at found
    split at found
    · exact ⟨rfl, nofun⟩
    · contradiction
  schemaUrl? _ _ := rfl

instance : LocalTarget (List LogRecord) where
  attributes? found := by
    -- Attributes are those of a log record.
    simp only [RollbackTarget.attributes?] at found
    split at found
    · exact ⟨rfl, nofun⟩
    · contradiction
  name? := nofun
  metric? := nofun
  metrics? := nofun
  schemaUrl? _ _ := rfl

/-- Something was put back only where a part was found. -/
theorem exists_of_putBack {τ α : Type} {target restored : τ} {found : Option (Part τ α)} {value : α}
    (done : putBack target found value = (restored, true)) : ∃ part, found = some part := by
  -- Nothing is put back where no part was found.
  cases found with
  | none => simp [putBack] at done
  | some part => exact ⟨part, rfl⟩

/-- A record that is found in telemetry on its own has a local address. -/
theorem LocalTarget.isLocal {τ : Type} [RollbackTarget τ] [LocalTarget τ] {record : JournalEntry}
    {value restored : τ} (found : record.undo value = (restored, true)) :
    record.address.IsLocal := by
  -- Each kind of record looks up one kind of thing, and finds it at local addresses alone.
  cases record with
  | renamedKeys address keys =>
    -- Keys are put back by a procedure of its own, at attributes that were found.
    simp only [JournalEntry.undo] at found
    split at found
    · rename_i part located
      exact LocalTarget.attributes? located
    · simp at found
  | renamedName address name =>
    -- A name is put back where it was found, and so are metrics and lists of metrics.
    obtain ⟨part, located⟩ := exists_of_putBack found
    exact LocalTarget.name? located
  | replacedMetric address metric =>
    obtain ⟨part, located⟩ := exists_of_putBack found
    exact LocalTarget.metric? located
  | replacedMetrics address metrics =>
    obtain ⟨part, located⟩ := exists_of_putBack found
    exact LocalTarget.metrics? located
  | schemaUrl address url =>
    -- Telemetry on its own has no schema URL to put back.
    obtain ⟨part, located⟩ := exists_of_putBack found
    rw [LocalTarget.schemaUrl?] at located
    contradiction

/-- The records of an attempt that reverts on telemetry on its own have local addresses. -/
theorem Reverts.isLocal {σ : Type} [RollbackTarget σ] [LocalTarget σ] {start : σ}
    {attempt : Conversion σ} (reverts : Reverts id start attempt) :
    ∀ record ∈ attempt.records, record.address.IsLocal := by
  -- Every record was found somewhere.
  intro record member
  obtain ⟨value, restored, found⟩ := Restores.found reverts member
  exact LocalTarget.isLocal found

/-- An attempt that reverts on telemetry on its own reverts on a request around it, once its records
are seen from there. -/
theorem Reverts.mapRecords {τ σ : Type} [RollbackTarget τ] [RollbackTarget σ] [LocalTarget σ]
    {whole : σ → τ} {origin : Origin}
    (carries : Carries whole (Address.within origin) Address.IsLocal) {start : σ}
    {attempt : Conversion σ} (reverts : Reverts id start attempt) :
    Reverts whole start (attempt.mapRecords (.within origin)) :=
  carries.restores reverts.isLocal reverts

/-- Records whose addresses are left as they are stay the same. -/
theorem JournalEntry.relocate_id : relocate id = id := by
  -- Each kind of record keeps its address with all else.
  funext record
  cases record <;> rfl

/-- An attempt that reverts on a part reverts on a whole that finds everything at the same
addresses. -/
theorem Reverts.carried {τ σ : Type} [RollbackTarget τ] [RollbackTarget σ] {whole : σ → τ}
    (carries : Carries whole id fun _ => True) {start : σ} {attempt : Conversion σ}
    (reverts : Reverts id start attempt) : Reverts id (whole start) (attempt.map whole) := by
  -- An address that is left as it is may be any address.
  have restores := carries.restores (fun _ _ => trivial) reverts
  rw [JournalEntry.relocate_id, List.map_id] at restores
  exact restores

/-! ### Places in a request -/

/-- What is found in a found part is found in the whole around it. -/
theorem Part.bind_within {τ σ α : Type} {outer : Option (Part τ σ)} {value : σ} {whole : σ → τ}
    (found : outer = some ⟨value, whole⟩) (inner : σ → Option (Part σ α)) :
    (do
      let outer ← outer
      let part ← inner outer.value
      return outer.within part) = (inner value).map (Part.map whole) := by
  -- The whole puts the inner part into the outer one.
  subst found
  exact Option.map_eq_bind.symm

section Places

variable {α : Type} [RollbackTarget (List α)]

/-- The items of a scope batch carry their records over to the batches around them. -/
theorem carries_items [LocalTarget (List α)] {whole : List α → List (ResourceBatch α)}
    {batch scope : Nat}
    (found : ∀ items, itemsAt? (whole items) (.scope batch scope) = some ⟨items, whole⟩) :
    Carries whole (Address.within (.scope batch scope)) Address.IsLocal where
  attributes? := by
    -- Each kind of thing is looked up in the items that are found, and put back around them.
    rintro ⟨origin, entity⟩ ⟨rfl, -⟩ items
    exact Part.bind_within (found items) (RollbackTarget.attributes? · (.here entity))
  name? := by
    rintro ⟨origin, entity⟩ ⟨rfl, -⟩ items
    exact Part.bind_within (found items) (RollbackTarget.name? · (.here entity))
  metric? := by
    rintro ⟨origin, entity⟩ ⟨rfl, -⟩ items
    exact Part.bind_within (found items) (RollbackTarget.metric? · (.here entity))
  metrics? := by
    rintro ⟨origin, entity⟩ ⟨rfl, -⟩ items
    exact Part.bind_within (found items) (RollbackTarget.metrics? · (.here entity))
  schemaUrl? := by
    -- The one address that could lead to a schema URL is not a local one.
    rintro ⟨origin, entity⟩ ⟨rfl, other⟩ items
    rw [LocalTarget.schemaUrl? items]
    cases entity <;> trivial

/-- A resource carries its records over to the batches around it. -/
theorem carries_resource {whole : Resource → List (ResourceBatch α)} {batch : Nat}
    (found : ∀ resource, resourceAt? (whole resource) (.resource batch) = some ⟨resource, whole⟩) :
    Carries whole (Address.within (.resource batch)) Address.IsLocal where
  attributes? := by
    -- Attributes are the only thing that is found in a resource.
    rintro ⟨origin, entity⟩ ⟨rfl, -⟩ resource
    exact Part.bind_within (found resource) (RollbackTarget.attributes? · (.here entity))
  name? := by
    rintro ⟨origin, entity⟩ ⟨rfl, -⟩ resource
    rfl
  metric? := by
    rintro ⟨origin, entity⟩ ⟨rfl, -⟩ resource
    rfl
  metrics? := by
    rintro ⟨origin, entity⟩ ⟨rfl, -⟩ resource
    rfl
  schemaUrl? := by
    rintro ⟨origin, entity⟩ ⟨rfl, other⟩ resource
    cases entity <;> trivial

end Places

/-- The batches of a request for traces carry their records over to the request as they are. -/
theorem carries_traces : Carries ExportRequest.traces id fun _ => True where
  attributes? _ _ := rfl
  name? _ _ := rfl
  metric? _ _ := rfl
  metrics? _ _ := rfl
  schemaUrl? _ _ := rfl

/-- The batches of a request for metrics carry their records over to the request as they are. -/
theorem carries_metrics : Carries ExportRequest.metrics id fun _ => True where
  attributes? _ _ := rfl
  name? _ _ := rfl
  metric? _ _ := rfl
  metrics? _ _ := rfl
  schemaUrl? _ _ := rfl

/-- The batches of a request for logs carry their records over to the request as they are. -/
theorem carries_logs : Carries ExportRequest.logs id fun _ => True where
  attributes? _ _ := rfl
  name? _ _ := rfl
  metric? _ _ := rfl
  metrics? _ _ := rfl
  schemaUrl? _ _ := rfl

end SchemaUplift
