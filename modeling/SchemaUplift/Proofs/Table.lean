import SchemaUplift.Table

/-! What tables and sets of names hold after they are made from lists. -/

namespace SchemaUplift

namespace Table

variable {α : Type}

/-- A search looks at the first entry and then at the others. -/
theorem lookup_cons_eq_ite (key : String) (entry : String × α) (rest : List (String × α)) :
    (entry :: rest).lookup key = if key = entry.1 then some entry.2 else rest.lookup key := by
  rw [List.lookup_cons]
  split <;> simp_all

/-- With distinct keys, what is found under a key is what stands with it. -/
theorem lookup_eq_some_iff {entries : List (String × α)} (distinct : (entries.map (·.1)).Nodup)
    {key : String} {value : α} :
    entries.lookup key = some value ↔ (key, value) ∈ entries := by
  -- The induction looks at the first entry, whose key the others do not have.
  induction entries with
  | nil => simp
  | cons entry rest ih =>
    rw [List.map_cons, List.nodup_cons] at distinct
    rw [lookup_cons_eq_ite, List.mem_cons, ← ih distinct.2]
    by_cases here : key = entry.1
    · -- The first entry has the key, so that none of the others does.
      have absent : rest.lookup key ≠ some value := by
        intro later
        exact distinct.1 (here ▸ List.mem_map_of_mem ((ih distinct.2).1 later))
      simp [here, Prod.ext_iff, eq_comm, here ▸ absent]
    · -- An entry under another key is not the one sought, so the search goes on.
      have other : (key, value) ≠ entry := by
        rintro rfl
        exact here rfl
      simp [here, other]

/-- An insertion decides what is found under its key, and under no other key. -/
theorem lookup_insertEntry (key other : String) (value : α) (entries : List (String × α)) :
    (insertEntry key value entries).lookup other =
      if other = key then some value else entries.lookup other := by
  -- The induction follows the walk to the place of the key.
  induction entries with
  | nil => simp [insertEntry, lookup_cons_eq_ite]
  | cons entry rest ih =>
    rw [insertEntry]
    split
    · -- The key comes before that of the first entry, and its entry is put in front.
      simp [lookup_cons_eq_ite]
    · split
      · rename_i replaced
        -- The first entry has the key, and is replaced. What the search asks for is that key or
        -- another one.
        by_cases same : other = key <;> simp [lookup_cons_eq_ite, ← replaced, same]
      · rename_i passed
        -- The first entry has a smaller key, and the insertion goes on behind it.
        rw [lookup_cons_eq_ite, ih, lookup_cons_eq_ite]
        by_cases same : other = key <;> simp [same, passed]

/-- A key that is set has its value, and other keys keep theirs. -/
theorem get?_insert (table : Table α) (key other : String) (value : α) :
    (table.insert key value).get? other = if other = key then some value else table.get? other :=
  lookup_insertEntry key other value table.entries

/-- Setting keys to values that depend on the key alone decides what is found under them. -/
theorem get?_foldl_insert (value : String → α) (names : List String) (table : Table α)
    (key : String) :
    ((names.map fun name => (name, value name)).foldl
        (fun table pair => table.insert pair.1 pair.2) table).get? key =
      if key ∈ names then some (value key) else table.get? key := by
  -- The induction inserts the first name and then the others, which may be the same name again.
  induction names generalizing table with
  | nil => simp
  | cons name rest ih =>
    rw [List.map_cons, List.foldl_cons, ih, get?_insert]
    -- A later insertion of the same key gives it the same value again.
    by_cases later : key ∈ rest <;> by_cases same : key = name <;> simp_all

/-- A table of names with values that depend on the name alone holds those names. -/
theorem get?_ofList_map (value : String → α) (names : List String) (key : String) :
    (ofList (names.map fun name => (name, value name))).get? key =
      if key ∈ names then some (value key) else none :=
  get?_foldl_insert value names empty key

/-- No key occurs twice. -/
theorem nodup_keys (table : Table α) : table.keys.Nodup := by
  -- Keys ascend strictly, so that no two of them are the same.
  refine List.pairwise_map.2 (table.sorted.imp fun before same => ?_)
  exact absurd (same ▸ before) (String.lt_irrefl _)

/-- What is found under a key is its entry. -/
theorem get?_eq_some_iff {table : Table α} {key : String} {value : α} :
    table.get? key = some value ↔ (key, value) ∈ table.entries :=
  lookup_eq_some_iff table.nodup_keys

/-- The keys are the names that have a value. -/
theorem mem_keys_iff (table : Table α) (key : String) :
    key ∈ table.keys ↔ table.contains key = true := by
  simp [keys, contains, get?]

/-- Looking a name up among the keys is looking for its value. -/
theorem contains_keys (table : Table α) (key : String) :
    table.keys.contains key = table.contains key := by
  rw [Bool.eq_iff_iff, List.contains_iff_mem, mem_keys_iff]

/-- The empty table holds no name. -/
theorem contains_of_isEmpty {table : Table α} (void : table.isEmpty = true) (key : String) :
    table.contains key = false := by
  rw [isEmpty, List.isEmpty_iff] at void
  simp [contains, get?, void]

/-- The entries left by a test are those whose key passes it. -/
theorem mem_filterKeys {test : String → Bool} {table : Table α} {entry : String × α} :
    entry ∈ (table.filterKeys test).entries ↔ entry ∈ table.entries ∧ test entry.1 = true :=
  List.mem_filter

/-- The keys left by a test are those that pass it. -/
theorem keys_filterKeys (test : String → Bool) (table : Table α) :
    (table.filterKeys test).keys = table.keys.filter test :=
  List.filter_map.symm

/-- A key is left by a test if it was there and passes it. -/
theorem contains_filterKeys (test : String → Bool) (table : Table α) (key : String) :
    (table.filterKeys test).contains key = (table.contains key && test key) := by
  -- Both sides are told through the keys, which are filtered with their entries.
  rw [Bool.eq_iff_iff, Bool.and_eq_true, ← mem_keys_iff, ← mem_keys_iff, keys_filterKeys,
    List.mem_filter]

end Table

namespace NameSet

/-- The set of some names holds those names. -/
theorem contains_ofNames (names : List String) (name : String) :
    (ofNames names).contains name = names.contains name := by
  rw [Table.contains, ofNames, Table.get?_ofList_map]
  -- The table has a value for the names of the list and for no others.
  by_cases member : name ∈ names <;> simp [member]

/-- The set of some names is empty only if there are none. -/
theorem isEmpty_ofNames (names : List String) : (ofNames names).isEmpty = names.isEmpty := by
  -- A set that is not empty holds its first name.
  cases names with
  | nil => rfl
  | cons name rest =>
    cases void : (ofNames (name :: rest)).isEmpty with
    | false => rfl
    | true =>
      have found := contains_ofNames (name :: rest) name
      simp [Table.contains_of_isEmpty void] at found

/-- A scope made from names covers those names, or every name if there are none. -/
theorem covers_ofNames (names : List String) (name : String) :
    (ofNames names).covers name = (names.isEmpty || names.contains name) := by
  rw [covers, isEmpty_ofNames, contains_ofNames]

end NameSet

end SchemaUplift
