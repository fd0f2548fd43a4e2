import SchemaUplift.Proofs.Table
import SchemaUplift.Schema.Pruning

/-! What pruning leaves of tables: each of its entries whose key no later table has. A walk back
that only remembers the keys still in use comes to the same, because a key that a table loses was
remembered before. -/

namespace SchemaUplift

/-! ### The walk back -/

namespace Prunable

variable {α : Type} [Prunable α]

/-- Whether an unscoped table among the rules renames the key. -/
def renames (rules : List α) (key : String) : Bool :=
  (rules.filterMap unscoped?).any (·.contains key)

/-- A walk back has seen exactly the keys that the unscoped tables rename. -/
theorem contains_seen (rules : List α) (key : String) :
    (rules.foldr meet ⟨[], []⟩).seen.contains key = renames rules key := by
  -- The walk back comes to the first rule last.
  induction rules with
  | nil => rfl
  | cons rule rest ih =>
    rw [List.foldr_cons, meet, renames, List.filterMap_cons]
    cases unscoped : unscoped? rule with
    -- A rule without an unscoped table is passed by.
    | none => exact ih
    | some table =>
      -- The table keeps the keys that were not seen yet, and lost keys were seen already.
      rw [List.any_cons, ← renames, ← ih, List.contains_append, Table.contains_keys,
        Table.contains_filterKeys]
      cases (rest.foldr meet ⟨[], []⟩).seen.contains key <;> simp

/-- The first rule is pruned by those after it. -/
theorem keepLast_cons (rule : α) (rest : List α) :
    keepLast (rule :: rest) =
      (match unscoped? rule with
      | some table => withTable rule (table.filterKeys fun key => !renames rest key)
      | none => rule) :: keepLast rest := by
  -- The rules behind the first one have been passed when the walk comes to it.
  simp only [keepLast, List.foldr_cons, meet, contains_seen]
  cases unscoped? rule <;> rfl

end Prunable

/-! ### Tables alone -/

namespace RenameTable

/-- The table at a place has a key. -/
def HasKeyAt (tables : List RenameTable) (place : Nat) (key : String) : Prop :=
  ∃ table ∈ tables[place]?, table.contains key = true

/-- The table at a place is the last one that has a key. -/
def LastHasKeyAt (tables : List RenameTable) (place : Nat) (key : String) : Prop :=
  HasKeyAt tables place key ∧ ∀ later, place < later → ¬ HasKeyAt tables later key

/-- What is left of tables are the last renames of their keys. -/
structure KeepsLast (tables kept : List RenameTable) : Prop where
  /-- No table comes or goes. -/
  length_eq : kept.length = tables.length
  /-- A table is left with those of its entries whose key no later table has. -/
  mem_entries_iff : ∀ place, ∀ table ∈ tables[place]?, ∀ left ∈ kept[place]?, ∀ entry,
    entry ∈ left.entries ↔
      entry ∈ table.entries ∧ ∀ later, place < later → ¬ HasKeyAt tables later entry.1
  /-- A key of some table is left in one table alone, the last one that has it. -/
  exists_last : ∀ place key, HasKeyAt tables place key →
    ∃ last, LastHasKeyAt tables last key ∧ ∀ other, HasKeyAt kept other key ↔ other = last

variable {tables : List RenameTable} {place other : Nat} {key : String}

/-- A place with a table that has a key is one of the list. -/
theorem HasKeyAt.lt_length (has : HasKeyAt tables place key) : place < tables.length := by
  -- The list has a table at the place.
  obtain ⟨table, found, -⟩ := has
  exact (List.getElem?_eq_some_iff.1 found).1

/-- Of the tables that have a key there is a last one. -/
theorem HasKeyAt.exists_last (has : HasKeyAt tables place key) :
    ∃ last, LastHasKeyAt tables last key := by
  -- Going on to a later table as long as one has the key comes to an end with the list.
  induction remaining : tables.length - place using Nat.strongRecOn generalizing place with
  | _ remaining ih =>
    by_cases more : ∃ later, place < later ∧ HasKeyAt tables later key
    · -- A later table has the key, and fewer are left behind that one.
      obtain ⟨later, behind, again⟩ := more
      have inside : later < tables.length := again.lt_length
      exact ih (tables.length - later) (by omega) again rfl
    · -- No later table has the key, so that this one is the last.
      exact ⟨place, has, fun later behind again => more ⟨later, behind, again⟩⟩

/-- There is one last table only. -/
theorem LastHasKeyAt.unique (last : LastHasKeyAt tables place key)
    (next : LastHasKeyAt tables other key) : place = other := by
  -- Neither of the two comes before the other.
  rcases Nat.lt_trichotomy place other with before | same | after
  · exact absurd next.1 (last.2 other before)
  · exact same
  · exact absurd last.1 (next.2 place after)

/-- The tables behind a place rename no key that none of them has. -/
theorem not_renames_drop_iff :
    (!Prunable.renames (tables.drop (place + 1)) key) = true ↔
      ∀ later, place < later → ¬ HasKeyAt tables later key := by
  rw [Bool.not_eq_true', ← Bool.not_eq_true]
  simp only [Prunable.renames, Prunable.unscoped?, List.filterMap_some, List.any_eq_true,
    List.mem_iff_getElem?, List.getElem?_drop, HasKeyAt, Option.mem_def]
  -- Places behind are counted from the table after the place, or from the first one.
  constructor
  · -- A later table of the list is one of those that are left when the first ones are dropped.
    rintro none later behind ⟨table, found, has⟩
    obtain ⟨beyond, rfl⟩ := Nat.exists_eq_add_of_le (Nat.succ_le_of_lt behind)
    exact none ⟨table, ⟨beyond, found⟩, has⟩
  · -- A table that is left stands behind the place in the list.
    rintro none ⟨table, ⟨beyond, found⟩, has⟩
    exact none (place + 1 + beyond) (by omega) ⟨table, found, has⟩

/-- A table is pruned by the tables behind its place. -/
theorem getElem?_keepLast (tables : List RenameTable) (place : Nat) :
    (Prunable.keepLast tables)[place]? = tables[place]?.map fun table =>
      table.filterKeys fun key => !Prunable.renames (tables.drop (place + 1)) key := by
  -- The walk back has passed the tables behind the place when it comes there.
  induction tables generalizing place with
  | nil => rfl
  | cons table rest ih =>
    -- The first table is pruned by all others, which are pruned on their own.
    rw [Prunable.keepLast_cons]
    cases place with
    | zero => rfl
    | succ place => exact ih place

/-- A key is left in the last table that has it, and in no other. -/
theorem hasKeyAt_keepLast_iff :
    HasKeyAt (Prunable.keepLast tables) place key ↔ LastHasKeyAt tables place key := by
  rw [LastHasKeyAt, ← not_renames_drop_iff]
  simp only [HasKeyAt, getElem?_keepLast, Option.mem_def, Option.map_eq_some_iff]
  constructor
  · -- What was left of a table has the key only if the table did.
    rintro ⟨_, ⟨table, found, rfl⟩, left⟩
    rw [Table.contains_filterKeys, Bool.and_eq_true] at left
    exact ⟨⟨table, found, left.1⟩, left.2⟩
  · -- The key passes the test, as no later table has it.
    rintro ⟨⟨table, found, has⟩, last⟩
    refine ⟨_, ⟨table, found, rfl⟩, ?_⟩
    rw [Table.contains_filterKeys, has, last, Bool.and_self]

/-- Pruning leaves the last renames of all keys. -/
theorem keepsLast_keepLast (tables : List RenameTable) :
    KeepsLast tables (Prunable.keepLast tables) where
  length_eq := by
    induction tables with
    | nil => rfl
    | cons table rest ih => rw [Prunable.keepLast_cons, List.length_cons, List.length_cons, ih]
  mem_entries_iff place table found left remains entry := by
    -- What is left at the place is the table there, filtered by the keys of those behind it.
    rw [Option.mem_def, getElem?_keepLast, Option.mem_def.1 found, Option.map_some,
      Option.some.injEq] at remains
    rw [← remains, Table.mem_filterKeys, not_renames_drop_iff]
  exists_last place key has := by
    obtain ⟨last, isLast⟩ := has.exists_last
    refine ⟨last, isLast, fun other => hasKeyAt_keepLast_iff.trans ?_⟩
    -- A place where the key is left is that of the last table, of which there is one.
    constructor
    · intro isOther
      exact isOther.unique isLast
    · rintro rfl
      exact isLast

end RenameTable

end SchemaUplift
