import SchemaUplift.Proofs.Rename
import SchemaUplift.Proofs.Attempt

/-! Renames of attributes without a place, and conversions of telemetry that do to the attributes in
one place what such a rename does to them on their own. -/

namespace SchemaUplift

/-- An attempt at giving attributes new keys, wherever they stand. A record holds the positions with
new keys and the former keys there, and a failure is the key that two attributes claim. -/
abbrev Rekeying := Attempt (List (Nat × String)) String Attributes

/-- The attempt seen on telemetry that has the changed value at an address. -/
def Attempt.placed {α β : Type} (address : Address) (whole : α → β)
    (attempt : Attempt (List (Nat × String)) String α) : Conversion β :=
  ⟨whole attempt.value, attempt.records.map (.renamedKeys address),
    attempt.failure.map .conflict⟩

/-- Gives each attribute its effective key, as long as no two attributes claim one key. -/
def RenameTable.rekey (table : RenameTable) (attributes : Attributes) : Rekeying :=
  if attributes.any fun entry => table.contains entry.key then
    let found := table.scan (.withCapacity attributes.length) 0 attributes
    ⟨found.attributes, if found.renamed.isEmpty then [] else [found.renamed], found.clash⟩
  else .unchanged attributes

/-- Tables rename alike in all places. -/
theorem RenameTable.map_convert_eq_placed {β : Type} (table : RenameTable) (address : Address)
    (whole : Attributes → β) (attributes : Attributes) :
    (table.convert address attributes).map whole =
      (table.rekey attributes).placed address whole := by
  -- Both scan the attributes alike, and the place shows in the record alone.
  rw [convert, rekey]
  split
  · -- Some key is in the table, and the clash becomes a conflict.
    simp only [Attempt.map, Attempt.placed]
    split <;> rfl
  · -- No key is in the table.
    rfl

/-- The empty table renames nothing. -/
theorem RenameTable.rekey_of_isEmpty {table : RenameTable} (void : table.isEmpty = true)
    (attributes : Attributes) : table.rekey attributes = .unchanged attributes := by
  -- No key is in the table, so no attribute is scanned.
  have absent : (attributes.any fun entry => table.contains entry.key) = false := by
    simp [Table.contains_of_isEmpty void]
  rw [rekey, absent]
  rfl

/-! ### Conversions that rename in one place -/

variable {β γ : Type} {address : Address} {whole : Attributes → β}

/-- The conversion does to the attributes in one place what the rename does to them on their own,
and nothing else: `whole` gives the telemetry by the attributes there, and `address` is the
place. -/
def RenamesAt (address : Address) (whole : Attributes → β) (rename : Attributes → Rekeying)
    (convert : β → Conversion β) : Prop :=
  ∀ attributes, convert (whole attributes) = (rename attributes).placed address whole

namespace RenamesAt

/-- A conversion of the attributes by a table renames in their place. -/
theorem of_table {table : RenameTable} {convert : β → Conversion β}
    (renames : ∀ attributes,
      convert (whole attributes) = (table.convert address attributes).map whole) :
    RenamesAt address whole table.rekey convert := by
  -- The table does not look at the place.
  intro attributes
  rw [renames, table.map_convert_eq_placed]

/-- What follows a rename in its place is what follows it on its own, if that renames there too. -/
theorem placed_andThen {attempt : Rekeying} {rename : Attributes → Rekeying}
    {convert : β → Conversion β} (renames : RenamesAt address whole rename convert) :
    (attempt.placed address whole).andThen convert =
      (attempt.andThen rename).placed address whole := by
  obtain ⟨attributes, records, clash⟩ := attempt
  cases clash with
  -- Nothing follows a clash.
  | some key => rfl
  | none =>
    -- What follows a success finds the attributes in the same place.
    have next := renames attributes
    simp only [Attempt.andThen, Attempt.placed, Option.map_none, next, List.map_append]

/-- Conversions in sequence do what the renames do in sequence. -/
theorem inSequence {items : List γ} {rename : γ → Attributes → Rekeying}
    {convert : γ → β → Conversion β}
    (each : ∀ item ∈ items, RenamesAt address whole (rename item) (convert item)) :
    RenamesAt address whole (Attempt.inSequence (items.map rename))
      (Attempt.inSequence (items.map convert)) := by
  -- The induction takes the first item, after which the attributes are still in their place.
  induction items with
  | nil =>
    intro attributes
    rfl
  | cons item rest ih =>
    obtain ⟨first, others⟩ := List.forall_mem_cons.1 each
    intro attributes
    rw [List.map_cons, Attempt.inSequence, first attributes, placed_andThen (ih others)]
    rfl

/-- A conversion that leaves the telemetry alone may follow. -/
theorem andThen_idle {rename : Attributes → Rekeying} {convert next : β → Conversion β}
    (renames : RenamesAt address whole rename convert)
    (idle : ∀ attributes, next (whole attributes) = .unchanged (whole attributes)) :
    RenamesAt address whole rename fun value => (convert value).andThen next := by
  -- The attributes are in their place when the other conversion is at its turn.
  intro attributes
  have same : next ((rename attributes).placed address whole).value =
      .unchanged ((rename attributes).placed address whole).value := idle _
  show (convert (whole attributes)).andThen next = _
  rw [renames attributes, Attempt.andThen_congr same, Attempt.andThen_unchanged]

/-- A conversion that leaves the telemetry alone may come first. -/
theorem idle_andThen {rename : Attributes → Rekeying} {convert before : β → Conversion β}
    (renames : RenamesAt address whole rename convert)
    (idle : ∀ attributes, before (whole attributes) = .unchanged (whole attributes)) :
    RenamesAt address whole rename fun value => (before value).andThen convert := by
  -- The attributes reach the rename as they were.
  intro attributes
  show (before (whole attributes)).andThen convert = _
  rw [idle, Attempt.unchanged_andThen, renames attributes]

/-- What renames in a part of some telemetry renames in all of it. -/
theorem map {rename : Attributes → Rekeying} {convert : β → Conversion β}
    (renames : RenamesAt address whole rename convert) (build : β → γ)
    {convertAll : γ → Conversion γ}
    (same : ∀ attributes,
      convertAll (build (whole attributes)) = (convert (whole attributes)).map build) :
    RenamesAt address (fun attributes => build (whole attributes)) rename convertAll := by
  -- What happens in the part is seen in all of it.
  intro attributes
  rw [same, renames attributes]
  rfl

/-- A walk over a single item converts the item at index zero. -/
theorem forEach_singleton {rename : Attributes → Rekeying} {step : Nat → β → Conversion β}
    (renames : RenamesAt address whole rename (step 0)) :
    RenamesAt address (fun attributes => [whole attributes]) rename (Attempt.forEach step) := by
  refine renames.map (fun item => [item]) fun attributes => ?_
  rw [Attempt.forEach, Attempt.forEachFrom]
  -- Nothing is left to convert after the item, be it converted or not.
  generalize step 0 (whole attributes) = first
  obtain ⟨value, records, failure⟩ := first
  cases failure <;> simp [Attempt.map, Attempt.forEachFrom, Attempt.unchanged]

end RenamesAt

end SchemaUplift
