import SchemaUplift.Journal.Rollback

/-! Rolling back record by record, and carrying records over from a part to the whole that contains
it: undoing a carried record on the whole is undoing the record on the part. -/

namespace SchemaUplift

section Rollback

variable {τ : Type} [RollbackTarget τ]

/-- Rolling back one more, older record undoes it after all the others. -/
theorem Journal.rollback_cons (record : JournalEntry) (records : List JournalEntry) (target : τ) :
    (Journal.mk (record :: records)).rollback target =
      ((record.undo ((Journal.mk records).rollback target).1).1,
        ((Journal.mk records).rollback target).2 +
          if (record.undo ((Journal.mk records).rollback target).1).2 then 1 else 0) := rfl

/-- Rolling back two runs of records is rolling back the newer one and then the older one. -/
theorem Journal.rollback_append (older newer : List JournalEntry) (target : τ) :
    (Journal.mk (older ++ newer)).rollback target =
      (((Journal.mk older).rollback ((Journal.mk newer).rollback target).1).1,
        ((Journal.mk older).rollback ((Journal.mk newer).rollback target).1).2 +
          ((Journal.mk newer).rollback target).2) := by
  -- The induction peels off the oldest record, which is undone last.
  induction older with
  | nil => simp [rollback]
  | cons record rest ih =>
    rw [List.cons_append, rollback_cons, ih, rollback_cons record rest]
    -- What is left is the counts, which are added in another order.
    simp only [Prod.mk.injEq, true_and]
    omega

/-- Undoing the records, the newest first, turns the second value into the third, and each record
finds its place. -/
def Restores : List JournalEntry → τ → τ → Prop
  | [], after, before => after = before
  | record :: records, after, before =>
    ∃ middle, Restores records after middle ∧ record.undo middle = (before, true)

/-- Two runs of records, the older of which starts from what the newer one leaves, undo each other's
changes as one run. -/
theorem Restores.append {older newer : List JournalEntry} {after middle before : τ}
    (first : Restores newer after middle) (second : Restores older middle before) :
    Restores (older ++ newer) after before := by
  -- The induction peels off the oldest records, which are undone last.
  induction older generalizing before with
  | nil => exact (show middle = before from second) ▸ first
  | cons record rest ih =>
    obtain ⟨between, undone, last⟩ := second
    exact ⟨between, ih undone, last⟩

/-- Rolling back a journal whose records restore a value gives the value, and counts them all. -/
theorem Restores.rollback {log : Journal} {after before : τ}
    (restores : Restores log.records after before) :
    log.rollback after = (before, log.size) := by
  obtain ⟨records⟩ := log
  -- Each record in turn is undone on what the newer ones have left, and is found.
  induction records generalizing before with
  | nil => exact congrArg (·, 0) restores
  | cons record rest ih =>
    obtain ⟨middle, undone, last⟩ := restores
    rw [Journal.rollback_cons, ih undone]
    -- The last record is found as well, which makes one more.
    simp [last, Journal.size]

/-- Each of the records that restore a value is found on some value. -/
theorem Restores.found {records : List JournalEntry} {after before : τ}
    (restores : Restores records after before) {record : JournalEntry}
    (member : record ∈ records) : ∃ value restored : τ, record.undo value = (restored, true) := by
  -- The record is the oldest one or lies among the newer ones.
  induction records generalizing before with
  | nil => simp at member
  | cons first rest ih =>
    obtain ⟨middle, undone, last⟩ := restores
    rcases List.mem_cons.1 member with same | member
    · -- It is the oldest one, undone last.
      exact ⟨middle, before, same ▸ last⟩
    · exact ih undone member

end Rollback

/-! ### Records carried over to a whole -/

section Carries

variable {τ σ : Type}

/-- Putting a value back into a part of the whole is putting it back into the part. -/
theorem putBack_map {α : Type} (whole : σ → τ) (part : σ) (found : Option (Part σ α)) (value : α) :
    putBack (whole part) (found.map (Part.map whole)) value =
      (putBack part found value).map whole id := by
  -- A place that is not found leaves the whole and the part alone.
  cases found <;> rfl

variable [RollbackTarget τ] [RollbackTarget σ]

/-- A whole that contains a part finds at relocated addresses what the part finds at the addresses
themselves, for all addresses in a domain. -/
structure Carries (whole : σ → τ) (relocate : Address → Address) (domain : Address → Prop) :
    Prop where
  /-- Attributes are found alike. -/
  attributes? : ∀ {address}, domain address → ∀ part : σ,
    RollbackTarget.attributes? (whole part) (relocate address) =
      (RollbackTarget.attributes? part address).map (Part.map whole)
  /-- Names are found alike. -/
  name? : ∀ {address}, domain address → ∀ part : σ,
    RollbackTarget.name? (whole part) (relocate address) =
      (RollbackTarget.name? part address).map (Part.map whole)
  /-- Metrics are found alike. -/
  metric? : ∀ {address}, domain address → ∀ part : σ,
    RollbackTarget.metric? (whole part) (relocate address) =
      (RollbackTarget.metric? part address).map (Part.map whole)
  /-- Lists of metrics are found alike. -/
  metrics? : ∀ {address}, domain address → ∀ part : σ,
    RollbackTarget.metrics? (whole part) (relocate address) =
      (RollbackTarget.metrics? part address).map (Part.map whole)
  /-- Schema URLs are found alike. -/
  schemaUrl? : ∀ {address}, domain address → ∀ part : σ,
    RollbackTarget.schemaUrl? (whole part) (relocate address) =
      (RollbackTarget.schemaUrl? part address).map (Part.map whole)

variable {whole : σ → τ} {relocate : Address → Address} {domain : Address → Prop}

/-- Undoing a relocated record on the whole is undoing the record on the part. -/
theorem Carries.undo (carries : Carries whole relocate domain) {record : JournalEntry}
    (within : domain record.address) (part : σ) :
    (record.relocate relocate).undo (whole part) = (record.undo part).map whole id := by
  -- The kinds of record differ in what they look up, and the whole finds each of it.
  cases record with
  -- Keys are given back to attributes.
  | renamedKeys address keys =>
    have within : domain address := within
    simp only [JournalEntry.relocate, JournalEntry.undo, carries.attributes? within]
    cases RollbackTarget.attributes? part address <;> rfl
  -- A name is given back to a metric or an event.
  | renamedName address name =>
    have within : domain address := within
    simp only [JournalEntry.relocate, JournalEntry.undo, carries.name? within, putBack_map]
  -- A metric is put back at its place.
  | replacedMetric address metric =>
    have within : domain address := within
    simp only [JournalEntry.relocate, JournalEntry.undo, carries.metric? within, putBack_map]
  -- A list of metrics is put back as a whole.
  | replacedMetrics address metrics =>
    have within : domain address := within
    simp only [JournalEntry.relocate, JournalEntry.undo, carries.metrics? within, putBack_map]
  -- A schema URL is put back.
  | schemaUrl address url =>
    have within : domain address := within
    simp only [JournalEntry.relocate, JournalEntry.undo, carries.schemaUrl? within, putBack_map]

/-- Rolling back relocated records on the whole is rolling back the records on the part, whether or
not they find their places. -/
theorem Carries.rollback (carries : Carries whole relocate domain) {records : List JournalEntry}
    (within : ∀ record ∈ records, domain record.address) (part : σ) :
    (Journal.mk (records.map (JournalEntry.relocate relocate))).rollback (whole part) =
      ((Journal.mk records).rollback part).map whole id := by
  -- The records are undone one by one, on the part and on the whole side by side.
  induction records with
  | nil => rfl
  | cons record rest ih =>
    have rolledBack := ih fun other member => within other (by simp [member])
    -- The newer records are rolled back on the part first.
    rw [List.map_cons, Journal.rollback_cons, rolledBack, Journal.rollback_cons record rest]
    simp only [Prod.map_fst, Prod.map_snd, id_eq, carries.undo (within record (by simp))]
    rfl

/-- Relocated records restore the whole as the records themselves restore the part. -/
theorem Carries.restores (carries : Carries whole relocate domain) {records : List JournalEntry}
    {after before : σ} (within : ∀ record ∈ records, domain record.address)
    (restores : Restores records after before) :
    Restores (records.map (JournalEntry.relocate relocate)) (whole after) (whole before) := by
  -- The records are undone one by one, on the part and on the whole side by side.
  induction records generalizing before with
  | nil => exact congrArg whole restores
  | cons record rest ih =>
    obtain ⟨middle, undone, last⟩ := restores
    -- What the newer records leave of the part is what they leave of the whole.
    refine ⟨whole middle, ih (fun other member => within other (by simp [member])) undone, ?_⟩
    rw [carries.undo (within record (by simp)), last]
    rfl

end Carries

end SchemaUplift
