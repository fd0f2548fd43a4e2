import SchemaUplift.Proofs.Journal.Restoration
import SchemaUplift.Proofs.Rename

/-! Attempts whose records undo them, also when they fail. An attempt is looked at where it stands:
as a change to a part of some whole on which its records are undone. -/

namespace SchemaUplift

variable {τ α β : Type} [RollbackTarget τ]

/-- Undoing the records of an attempt on a part of a whole gives the whole with the part as it was
at the start. -/
def Reverts (whole : α → τ) (start : α) (attempt : Conversion α) : Prop :=
  Restores attempt.records (whole attempt.value) (whole start)

namespace Reverts

variable {whole : α → τ}

/-- Where nothing is changed nothing has to be undone. -/
theorem unchanged (whole : α → τ) (value : α) : Reverts whole value (.unchanged value) := rfl

/-- A failure before any change leaves nothing to undo. -/
theorem failed (whole : α → τ) (value : α) (failure : ConversionError) :
    Reverts whole value (.failed value failure) := rfl

/-- A single change is undone by its record. -/
theorem changed {start value : α} {record : JournalEntry}
    (undone : record.undo (whole value) = (whole start, true)) :
    Reverts whole start (.changed value record) :=
  ⟨whole value, rfl, undone⟩

/-- An attempt on a part reverts as a change to what contains the part. -/
theorem map {f : β → α} {start : α} {part : β} {attempt : Conversion β}
    (reverts : Reverts (fun part => whole (f part)) part attempt) (same : f part = start) :
    Reverts whole start (attempt.map f) :=
  same ▸ reverts

/-- What follows an attempt is undone before the attempt itself. -/
theorem andThen {start : α} {attempt : Conversion α} {next : α → Conversion α}
    (first : Reverts whole start attempt) (second : ∀ value, Reverts whole value (next value)) :
    Reverts whole start (attempt.andThen next) := by
  -- Only an attempt that did not fail is followed by anything.
  unfold Attempt.andThen
  split
  · -- After a failure the records are those of the first attempt alone.
    exact first
  · -- After a success the newer records are undone first.
    exact Restores.append (second attempt.value) first

/-- Steps that revert also do so one after the other. -/
theorem inSequence {steps : List (α → Conversion α)}
    (each : ∀ step ∈ steps, ∀ value, Reverts whole value (step value)) (start : α) :
    Reverts whole start (Attempt.inSequence steps start) := by
  -- The induction takes the first step and then the others from wherever it led.
  induction steps generalizing start with
  | nil => exact .unchanged whole start
  | cons step rest ih =>
    -- The others revert from any value that the first step may leave.
    exact .andThen (each step (by simp) start)
      fun value => ih (fun other member => each other (by simp [member])) value

/-- Steps that revert on single items of a list, after the items already done, revert on the
list. -/
theorem forEachFrom {whole : List α → τ} {step : Nat → α → Conversion α}
    (each : ∀ before item after,
      Reverts (fun item => whole (before ++ item :: after)) item (step before.length item))
    (before items : List α) :
    Reverts (fun items => whole (before ++ items)) items
      (Attempt.forEachFrom before.length step items) := by
  -- The induction moves the first item over to the items already done.
  induction items generalizing before with
  | nil => exact .unchanged _ []
  | cons item rest ih =>
    -- The item stands between those done and those to come.
    have head := each before item rest
    have tail := ih (before ++ [(step before.length item).value])
    simp only [Attempt.forEachFrom]
    split
    · -- The walk ends at the item, whose records are all there are.
      exact head
    · -- The others are undone before the item.
      simp only [List.append_assoc, List.singleton_append, List.length_append,
        List.length_singleton] at tail
      exact Restores.append tail head

/-- Steps that revert on single items of a list revert on the list. -/
theorem forEach {whole : List α → τ} {step : Nat → α → Conversion α}
    (each : ∀ before item after,
      Reverts (fun item => whole (before ++ item :: after)) item (step before.length item))
    (items : List α) : Reverts whole items (Attempt.forEach step items) :=
  forEachFrom each [] items

end Reverts

/-! ### Renamed keys -/

/-- Giving back one more key undoes its change, once the later ones are undone. -/
theorem restoreKeys_cons {before after : Attributes} {entry : Attribute} {key : String}
    {keys : List (Nat × String)} {attributes : Attributes}
    (restored : restoreKeys keys attributes = before ++ { entry with key } :: after) :
    restoreKeys ((before.length, entry.key) :: keys) attributes = before ++ entry :: after := by
  -- The position is that of the entry, whose key is the only thing that differs.
  rw [restoreKeys, List.foldr_cons, ← restoreKeys, restored,
    List.modify_eq_take_cons_drop (by simp)]
  simp

namespace RenameTable

variable (table : RenameTable)

/-- The noted keys give the attributes back that stand behind others and got new keys. -/
theorem restoreKeys_namedKeys (before passed rest : Attributes) :
    restoreKeys (table.namedKeys before.length passed)
      (before ++ (passed.map table.renamed ++ rest)) = before ++ (passed ++ rest) := by
  -- The induction moves the first attribute, with the key that it has by then, to those before.
  induction passed generalizing before with
  | nil => rfl
  | cons first passed ih =>
    have tail (entry : Attribute) :
        restoreKeys (table.namedKeys (before.length + 1) passed)
          (before ++ entry :: (passed.map table.renamed ++ rest)) =
            before ++ entry :: (passed ++ rest) := by
      simpa using ih (before ++ [entry])
    -- Only a key that the table has is noted, and only such a key was changed.
    cases named : table.contains first.key with
    | true =>
      have noted : table.namedKeys before.length (first :: passed) =
          (before.length, first.key) :: table.namedKeys (before.length + 1) passed := by
        simp [namedKeys, named]
      rw [noted]
      -- The key is noted, and is given back once those behind it are.
      exact restoreKeys_cons (tail (table.renamed first))
    | false =>
      have passedOver : table.namedKeys before.length (first :: passed) =
          table.namedKeys (before.length + 1) passed := by
        simp [namedKeys, named]
      -- The key is not noted, and was left alone.
      rw [passedOver, List.map_cons, renamed_of_not_contains named]
      exact tail first

/-- Noted positions are positions of attributes. -/
theorem lt_of_mem_namedKeys {attributes : Attributes} {entry : Nat × String}
    (noted : entry ∈ table.namedKeys 0 attributes) : entry.1 < attributes.length := by
  -- Positions are those that the attributes are numbered with.
  obtain ⟨found, member, rfl⟩ := List.mem_map.1 noted
  exact List.snd_lt_of_mem_zipIdx (List.mem_of_mem_filter member)

/-- Renaming the attributes found at an address reverts, also if it stops at a clash. -/
theorem reverts_convert {whole : Attributes → τ} {address : Address}
    (found : ∀ attributes,
      RollbackTarget.attributes? (whole attributes) address = some ⟨attributes, whole⟩)
    (attributes : Attributes) : Reverts whole attributes (table.convert address attributes) := by
  -- However far the rename got, its record gives the keys back up to there.
  have undone (passed rest : Attributes) :
      (JournalEntry.renamedKeys address (table.namedKeys 0 passed)).undo
        (whole (passed.map table.renamed ++ rest)) = (whole (passed ++ rest), true) := by
    -- The keys given back are those of the attributes passed.
    have restored := table.restoreKeys_namedKeys [] passed rest
    -- Each noted position is one of the attributes, so that the record is found.
    have existing : ∀ entry ∈ table.namedKeys 0 passed,
        entry.1 < (passed.map table.renamed ++ rest).length := by
      intro entry noted
      have within := table.lt_of_mem_namedKeys noted
      rw [List.length_append, List.length_map]
      omega
    simp only [List.length_nil, List.nil_append] at restored
    simpa [JournalEntry.undo, found, restored] using existing
  obtain ⟨-, same⟩ | ⟨-, -, same⟩ | ⟨passed, entry, rest, rfl, -, -, -, same⟩ :=
    table.convert_cases address attributes
  · -- The table names none of the keys.
    rw [same]
    exact .unchanged whole attributes
  · -- All attributes are renamed, with one record.
    rw [same]
    refine .changed ?_
    simpa using undone attributes []
  · rw [same]
    -- Without a note nothing was changed, and with notes one record holds them all.
    cases noNote : (table.namedKeys 0 passed).isEmpty with
    -- Nothing was noted before the clash.
    | true =>
      have restored := table.restoreKeys_namedKeys [] passed (entry :: rest)
      have none : table.namedKeys 0 passed = [] := List.isEmpty_iff.1 noNote
      simp only [List.length_nil, List.nil_append, none, restoreKeys, List.foldr_nil] at restored
      rw [restored]
      exact rfl
    -- The record holds what was renamed before the clash.
    | false => exact ⟨_, rfl, undone passed (entry :: rest)⟩

end RenameTable

end SchemaUplift
