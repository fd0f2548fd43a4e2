/-! Tables from names to values, kept in ascending order of their names so that equal contents are
equal tables. -/

namespace SchemaUplift

/-- A finite map keyed by text. -/
structure Table (α : Type) where
  /-- The keys with their values. -/
  entries : List (String × α)
  /-- The keys ascend by code point, so none occurs twice. -/
  sorted : entries.Pairwise fun a b => a.1 < b.1

namespace Table

variable {α β : Type}

instance [DecidableEq α] : DecidableEq (Table α) := fun a b =>
  decidable_of_iff (a.entries = b.entries) <| by cases a; cases b; simp

/-- The table without entries. -/
def empty : Table α := ⟨[], .nil⟩

instance : EmptyCollection (Table α) := ⟨empty⟩

instance : Inhabited (Table α) := ⟨empty⟩

/-- Whether there is no entry. -/
def isEmpty (table : Table α) : Bool := table.entries.isEmpty

/-- The number of entries. -/
def size (table : Table α) : Nat := table.entries.length

/-- The keys, ascending. -/
def keys (table : Table α) : List String := table.entries.map (·.1)

/-- The value at a key, if it has one. -/
def get? (table : Table α) (key : String) : Option α := table.entries.lookup key

/-- Whether a key has a value. -/
def contains (table : Table α) (key : String) : Bool := (table.get? key).isSome

/-- Puts a key in its place among ascending entries, over the value it may have had. -/
def insertEntry (key : String) (value : α) : List (String × α) → List (String × α)
  | [] => [(key, value)]
  | entry :: rest =>
    if key < entry.1 then (key, value) :: entry :: rest
    else if key = entry.1 then (key, value) :: rest
    else entry :: insertEntry key value rest

/-- An entry after an insertion is the one inserted or was there before. -/
theorem mem_insertEntry {key : String} {value : α} {entry : String × α}
    {entries : List (String × α)} (member : entry ∈ insertEntry key value entries) :
    entry = (key, value) ∨ entry ∈ entries := by
  -- The induction follows the walk to the place of the key.
  induction entries with
  | nil => simpa [insertEntry] using member
  | cons head rest ih =>
    simp only [insertEntry] at member
    split at member
    · simpa using member
    · split at member
      · simp only [List.mem_cons] at member ⊢
        exact member.imp id Or.inr
      · simp only [List.mem_cons] at member ⊢
        rcases member with same | member
        · exact Or.inr (Or.inl same)
        · exact (ih member).imp id Or.inr

/-- Insertion keeps the keys ascending. -/
theorem pairwise_insertEntry (key : String) (value : α) {entries : List (String × α)}
    (ascending : entries.Pairwise fun a b => a.1 < b.1) :
    (insertEntry key value entries).Pairwise fun a b => a.1 < b.1 := by
  -- The three cases place the key before, at and after the head.
  induction ascending with
  | nil => simp [insertEntry]
  | @cons head rest below ascending ih =>
    simp only [insertEntry]
    split
    · rename_i before
      refine .cons (fun entry member => ?_) (.cons below ascending)
      rcases List.mem_cons.1 member with same | member
      · exact same ▸ before
      · exact String.lt_trans before (below entry member)
    · split
      · rename_i same
        exact .cons (fun entry member => same ▸ below entry member) ascending
      · rename_i notBefore other
        refine .cons (fun entry member => ?_) ih
        rcases mem_insertEntry member with same | member
        · subst same
          rcases Std.lt_trichotomy key head.1 with less | same | greater
          · exact absurd less notBefore
          · exact absurd same other
          · exact greater
        · exact below entry member

/-- The table with a key set to a value. -/
def insert (table : Table α) (key : String) (value : α) : Table α :=
  ⟨insertEntry key value table.entries, pairwise_insertEntry key value table.sorted⟩

/-- The table of the given pairs; the last pair with a key wins. -/
def ofList (pairs : List (String × α)) : Table α :=
  pairs.foldl (fun table pair => table.insert pair.1 pair.2) empty

/-- The entries whose key passes the test. -/
def filterKeys (test : String → Bool) (table : Table α) : Table α :=
  ⟨table.entries.filter fun entry => test entry.1, table.sorted.filter _⟩

end Table

/-- A set of names. -/
abbrev NameSet := Table Unit

/-- The set of the names in a list. -/
def NameSet.ofNames (names : List String) : NameSet :=
  Table.ofList (names.map fun name => (name, ()))

/-- Whether a name lies in a scope; the empty scope holds every name. -/
def NameSet.covers (scope : NameSet) (name : String) : Bool :=
  scope.isEmpty || scope.contains name

end SchemaUplift
