import SchemaUplift.Proofs.AdaptiveMap
import SchemaUplift.Proofs.Interpretation.Basic

/-! What a rename of attribute keys does: which attributes get new keys, where it stops, and what it
records; and when it succeeds. -/

namespace SchemaUplift

/-- No two attributes have the same key. -/
def Attributes.HasDistinctKeys (attributes : Attributes) : Prop := (attributes.map (·.key)).Nodup

/-- Of items with distinct keys one has the key of that one. -/
theorem filter_key_eq_singleton {α κ : Type} [BEq κ] [LawfulBEq κ] {key : α → κ} {items : List α}
    (distinct : (items.map key).Nodup) {item : α} (member : item ∈ items) :
    items.filter (key · == key item) = [item] := by
  -- The induction looks for the item among the first one and the rest.
  induction items with
  | nil => simp at member
  | cons first rest ih =>
    rw [List.map_cons, List.nodup_cons] at distinct
    rcases List.mem_cons.1 member with rfl | later
    · -- None of the others has the key of the first item.
      have none : rest.filter (key · == key item) = [] := by
        rw [List.filter_eq_nil_iff]
        intro other otherMember same
        exact distinct.1 (List.mem_map.2 ⟨other, otherMember, eq_of_beq same⟩)
      rw [List.filter_cons_of_pos (by simp), none]
    · -- The item is further down, so the first one has another key.
      have different : ¬ (key first == key item) = true := by
        intro same
        exact distinct.1 (List.mem_map.2 ⟨item, later, (eq_of_beq same).symm⟩)
      rw [List.filter_cons_of_neg (p := (key · == key item)) different, ih distinct.2 later]

/-! ### Repeats -/

/-- The items before a bound are distinct exactly if each of them is new at its position. -/
theorem nodup_take_iff {α : Type} (items : List α) (bound : Nat) : (items.take bound).Nodup ↔
    ∀ position < bound, ∀ item, items[position]? = some item → item ∉ items.take position := by
  -- The induction adds the item at the bound, if there is one.
  induction bound with
  | zero => simp
  | succ bound ih =>
    rw [Nat.forall_lt_succ_right, ← ih, List.take_add_one]
    cases items[bound]? with
    | none => simp
    | some item => simp [List.nodup_append, imp_not_comm]

/-- The first item that stands before its position too, with the position. -/
def firstRepeat? {α : Type} [BEq α] (items : List α) : Option (α × Nat) :=
  items.zipIdx.find? fun entry => (items.take entry.2).contains entry.1

section Repeats

variable {α : Type} [BEq α] [LawfulBEq α] {items : List α}

/-- There is no repeat exactly if the items are distinct. -/
theorem firstRepeat?_eq_none_iff : firstRepeat? items = none ↔ items.Nodup := by
  -- All positions are below the length of the list.
  have new := nodup_take_iff items items.length
  rw [List.take_length] at new
  rw [firstRepeat?, List.find?_eq_none, new]
  simp only [Prod.forall, List.mk_mem_zipIdx_iff_getElem?, List.contains_iff_mem]
  -- Where no position repeats, each item is new at its position.
  constructor
  · intro fresh position _ item found
    exact fresh item position found
  · -- Where each item is new at its position, no position repeats.
    intro fresh item position found
    exact fresh position (List.getElem?_eq_some_iff.1 found).1 item found

/-- The first repeat is on the position before which the items are distinct and the item is one of
them. -/
theorem firstRepeat?_eq_some_iff {item : α} {position : Nat} :
    firstRepeat? items = some (item, position) ↔
      (items.take position).Nodup ∧ items[position]? = some item ∧ item ∈ items.take position := by
  -- The first position found is the one before which nothing repeats.
  rw [firstRepeat?, List.find?_eq_some_iff_getElem, nodup_take_iff]
  simp only [List.contains_eq_mem, decide_eq_true_eq, List.getElem_zipIdx, Nat.zero_add,
    Prod.mk.injEq, List.length_zipIdx, Bool.not_eq_true', decide_eq_false_iff_not,
    List.getElem?_eq_some_iff]
  constructor
  · -- What is found repeats, and the positions before it do not.
    rintro ⟨repeats, _, within, ⟨rfl, rfl⟩, fresh⟩
    refine ⟨?_, ⟨within, rfl⟩, repeats⟩
    rintro place below _ ⟨_, rfl⟩
    exact fresh place below
  · -- The position repeats, and it is found since none before it does.
    rintro ⟨fresh, ⟨within, rfl⟩, repeats⟩
    exact ⟨repeats, position, within, ⟨rfl, rfl⟩, fun place below => fresh place below _ ⟨_, rfl⟩⟩

/-- Items whose images repeat part at the first repeat. -/
theorem exists_of_firstRepeat?_map {β : Type} {f : β → α} {sources : List β} {item : α}
    {position : Nat} (found : firstRepeat? (sources.map f) = some (item, position)) :
    ∃ before source after, sources = before ++ source :: after ∧ before.length = position ∧
      f source = item ∧ (before.map f).Nodup ∧ item ∈ before.map f := by
  -- The list parts at the position found.
  obtain ⟨distinct, place, member⟩ := firstRepeat?_eq_some_iff.1 found
  rw [List.getElem?_map, Option.map_eq_some_iff] at place
  obtain ⟨source, place, rfl⟩ := place
  obtain ⟨within, rfl⟩ := List.getElem?_eq_some_iff.1 place
  rw [← List.map_take] at distinct member
  refine ⟨sources.take position, _, sources.drop (position + 1), ?_, ?_, rfl, distinct, member⟩
  · rw [← List.drop_eq_getElem_cons within, List.take_append_drop]
  · exact List.length_take_of_le (Nat.le_of_lt within)

end Repeats

namespace RenameTable

variable {table : RenameTable}

/-- The attribute under the key that the table gives it. -/
def renamed (table : RenameTable) (entry : Attribute) : Attribute :=
  { entry with key := table.effective entry.key }

/-- The positions, counted from `index` and ascending, whose keys the table has, each with its
key. -/
def namedKeys (table : RenameTable) (index : Nat) (attributes : Attributes) :
    List (Nat × String) :=
  ((attributes.zipIdx index).filter fun entry => table.contains entry.1.key).map fun entry =>
    (entry.2, entry.1.key)

/-- An attribute whose key the table does not have stays as it is. -/
theorem renamed_of_not_contains {entry : Attribute}
    (absent : table.contains entry.key = false) : table.renamed entry = entry := by
  -- A key that the table does not have is kept as it is.
  rw [Table.contains, Option.isSome_eq_false_iff, Option.isNone_iff_eq_none] at absent
  rw [renamed, effective, absent]
  rfl

/-- Attributes stay as they are if the table has none of their keys. -/
theorem map_renamed_of_not_named {attributes : Attributes}
    (absent : ¬ ∃ entry ∈ attributes, table.contains entry.key = true) :
    attributes.map table.renamed = attributes := by
  -- Each attribute is looked at by itself.
  refine (List.map_congr_left ?_).trans attributes.map_id
  intro entry member
  refine renamed_of_not_contains ?_
  by_contra found
  exact absent ⟨entry, member, by simpa using found⟩

/-- The table has the key of some attribute exactly if there is a position with such a key. -/
theorem namedKeys_isEmpty (index : Nat) (attributes : Attributes) :
    (table.namedKeys index attributes).isEmpty =
      !attributes.any fun entry => table.contains entry.key := by
  -- The positions are counted from an index that moves on.
  induction attributes generalizing index with
  | nil => rfl
  | cons first rest ih =>
    have others := ih (index + 1)
    cases named : table.contains first.key <;> simp_all [namedKeys]

/-! ### The scan -/

/-- A scan passes over attributes as long as the keys that they get are distinct and not claimed
before. It gives them these keys, and claims them on the way to the rest. -/
theorem exists_scan_append {claimed : AdaptiveMap Nat} (formed : claimed.WellFormed) (index : Nat)
    {passed : Attributes}
    (free : (claimed.toList.map (·.1) ++ passed.map (table.effective ·.key)).Nodup)
    (rest : Attributes) :
    ∃ further : AdaptiveMap Nat, further.WellFormed ∧
      further.toList.map (·.1) =
        claimed.toList.map (·.1) ++ passed.map (table.effective ·.key) ∧
      table.scan claimed index (passed ++ rest) =
        let found := table.scan further (index + passed.length) rest
        ⟨passed.map table.renamed ++ found.attributes,
          table.namedKeys index passed ++ found.renamed, found.clash⟩ := by
  -- The induction claims the key that the first attribute gets.
  induction passed generalizing claimed index with
  | nil => exact ⟨claimed, formed, by simp, rfl⟩
  | cons first passed ih =>
    -- The key of the first attribute is not claimed yet.
    have fresh : table.effective first.key ∉ claimed.toList.map (·.1) := by
      intro member
      exact List.disjoint_of_nodup_append free member (by simp)
    obtain ⟨stillFormed, entries⟩ := formed.set (table.effective first.key) index
    -- From then on it is, after all keys claimed before.
    have keys : (claimed.set (table.effective first.key) index).toList.map (·.1) =
        claimed.toList.map (·.1) ++ [table.effective first.key] := by
      rw [entries, AdaptiveMap.map_fst_put, if_neg fresh]
    obtain ⟨further, furtherFormed, furtherKeys, scanned⟩ :=
      ih stillFormed (index + 1) (by simpa [keys] using free)
    refine ⟨further, furtherFormed, by simpa [keys] using furtherKeys, ?_⟩
    have place : index + (first :: passed).length = index + 1 + passed.length := by
      simp only [List.length_cons]
      omega
    rw [List.cons_append, scan, if_neg (mt (formed.contains_iff _).1 fresh), scanned, place]
    -- An attribute that the table does not name has its key already, and makes no note.
    by_cases named : table.contains first.key = true
    · simp [named, namedKeys, renamed]
    · simp [named, namedKeys, renamed_of_not_contains]

/-- A scan for which all keys are free gives every attribute its new key. -/
theorem scan_of_nodup {attributes : Attributes}
    (distinct : (attributes.map (table.effective ·.key)).Nodup) (capacity : Nat) :
    table.scan (.withCapacity capacity) 0 attributes =
      ⟨attributes.map table.renamed, table.namedKeys 0 attributes, none⟩ := by
  -- The scan starts with no key claimed, and nothing is left after all attributes.
  obtain ⟨further, -, -, scanned⟩ := exists_scan_append
    (AdaptiveMap.wellFormed_withCapacity capacity) 0
    (by simpa [AdaptiveMap.toList_withCapacity] using distinct) []
  simpa [scan] using scanned

/-- A scan stops at the first attribute that gets a key that an earlier one has got. -/
theorem scan_of_clash {passed : Attributes} {entry : Attribute}
    (distinct : (passed.map (table.effective ·.key)).Nodup)
    (taken : table.effective entry.key ∈ passed.map (table.effective ·.key))
    (rest : Attributes) (capacity : Nat) :
    table.scan (.withCapacity capacity) 0 (passed ++ entry :: rest) =
      ⟨passed.map table.renamed ++ entry :: rest, table.namedKeys 0 passed,
        some (table.effective entry.key)⟩ := by
  -- The scan passes all attributes before the clash.
  obtain ⟨further, formed, keys, scanned⟩ := exists_scan_append
    (AdaptiveMap.wellFormed_withCapacity capacity) 0
    (by simpa [AdaptiveMap.toList_withCapacity] using distinct) (entry :: rest)
  rw [AdaptiveMap.toList_withCapacity, List.map_nil, List.nil_append] at keys
  -- By then the keys of the attributes passed are claimed.
  have claimed : further.contains (table.effective entry.key) = true :=
    (formed.contains_iff _).2 (keys ▸ taken)
  rw [scanned, scan, if_pos claimed]
  simp only [List.append_nil]

/-! ### The rename -/

/-- A rename fares in one of three ways: the table has no key of the attributes, and nothing is
changed; or no key repeats, and every attribute gets its new key; or it stops at the first attribute
that gets a key that an earlier one has got, and leaves it and all attributes after it alone. -/
theorem convert_cases (table : RenameTable) (address : Address) (attributes : Attributes) :
    ((¬ ∃ entry ∈ attributes, table.contains entry.key = true) ∧
      table.convert address attributes = .unchanged attributes) ∨
    ((∃ entry ∈ attributes, table.contains entry.key = true) ∧
      (attributes.map (table.effective ·.key)).Nodup ∧
      table.convert address attributes = .changed (attributes.map table.renamed)
        (.renamedKeys address (table.namedKeys 0 attributes))) ∨
    ∃ passed entry rest, attributes = passed ++ entry :: rest ∧
      (∃ entry ∈ attributes, table.contains entry.key = true) ∧
      (passed.map (table.effective ·.key)).Nodup ∧
      table.effective entry.key ∈ passed.map (table.effective ·.key) ∧
      table.convert address attributes = ⟨passed.map table.renamed ++ entry :: rest,
        if (table.namedKeys 0 passed).isEmpty then []
          else [.renamedKeys address (table.namedKeys 0 passed)],
        some (.conflict (table.effective entry.key))⟩ := by
  -- The table has some key of the attributes, or the rename does nothing.
  by_cases named : ∃ entry ∈ attributes, table.contains entry.key = true
  · have met : (attributes.any fun entry => table.contains entry.key) = true :=
      List.any_eq_true.2 named
    cases clash : firstRepeat? (attributes.map (table.effective ·.key)) with
    -- Without a repeat the scan goes through to the end.
    | none =>
      have distinct := firstRepeat?_eq_none_iff.1 clash
      have noted : (table.namedKeys 0 attributes).isEmpty = false := by
        simp [namedKeys_isEmpty, met]
      refine .inr (.inl ⟨named, distinct, ?_⟩)
      rw [convert, if_pos met, scan_of_nodup distinct]
      simp [noted, Attempt.changed]
    -- With a repeat the scan stops at the first one.
    | some found =>
      obtain ⟨key, position⟩ := found
      obtain ⟨passed, entry, rest, rfl, rfl, rfl, distinct, taken⟩ :=
        exists_of_firstRepeat?_map clash
      refine .inr (.inr ⟨passed, entry, rest, rfl, named, distinct, taken, ?_⟩)
      rw [convert, if_pos met, scan_of_clash distinct taken]
      rfl
  · exact .inl ⟨named, by rw [convert, if_neg (mt List.any_eq_true.1 named)]⟩

/-- A rename changes no value, whether it succeeds or not. -/
theorem map_value_convert (table : RenameTable) (address : Address) (attributes : Attributes) :
    (table.convert address attributes).value.map (·.value) = attributes.map (·.value) := by
  -- Whichever way the rename fares, what it writes are keys.
  obtain ⟨-, same⟩ | ⟨-, -, same⟩ | ⟨passed, entry, rest, rfl, -, -, -, same⟩ :=
    table.convert_cases address attributes
  · rw [same]
    rfl
  · simp [same, Attempt.changed, renamed]
  · simp [same, renamed]

/-- What a rename does, exactly. If the table has no key of the attributes, nothing is changed.
Otherwise the first of the keys that the attributes get which repeats an earlier one decides.
Without a repeat every attribute gets its key; with one, the attributes before it do, the others
stay, and the repeated key is the conflict. There is one record, of the keys that the table has
among the attributes passed, and none if there are no such keys. No value is changed. -/
theorem convert_eq_upTo_firstRepeat? (table : RenameTable) (address : Address)
    (attributes : Attributes) :
    table.convert address attributes =
      (if attributes.any fun entry => table.contains entry.key then
        match firstRepeat? (attributes.map (table.effective ·.key)) with
        | none => .changed (attributes.map table.renamed)
            (.renamedKeys address (table.namedKeys 0 attributes))
        | some (key, position) =>
          let passed := attributes.take position
          ⟨passed.map table.renamed ++ attributes.drop position,
            if (table.namedKeys 0 passed).isEmpty then []
              else [.renamedKeys address (table.namedKeys 0 passed)],
            some (.conflict key)⟩
      else .unchanged attributes) ∧
    (table.convert address attributes).value.map (·.value) = attributes.map (·.value) := by
  refine ⟨?_, table.map_value_convert address attributes⟩
  -- Each of the three ways in which a rename fares is one branch of the statement.
  obtain ⟨idle, same⟩ | ⟨named, distinct, same⟩ |
    ⟨passed, entry, rest, split, named, distinct, taken, same⟩ :=
    table.convert_cases address attributes
  · rw [same, if_neg (mt List.any_eq_true.1 idle)]
  · rw [same, if_pos (List.any_eq_true.2 named), firstRepeat?_eq_none_iff.2 distinct]
  · -- The repeat is on the position of the attribute at which the rename stops.
    have clash : firstRepeat? (attributes.map (table.effective ·.key)) =
        some (table.effective entry.key, passed.length) := by
      rw [firstRepeat?_eq_some_iff, split]
      simpa using ⟨distinct, List.mem_map.1 taken⟩
    rw [same, if_pos (List.any_eq_true.2 named), clash, split]
    simp

/-- A rename succeeds exactly if it names no key of the attributes, or the keys that they get are
distinct; either way each attribute then has the key that it gets. -/
theorem rename?_eq_some_iff {attributes result : Attributes} :
    table.rename? attributes = some result ↔
      ((∃ entry ∈ attributes, table.contains entry.key = true) →
        Attributes.HasDistinctKeys (attributes.map table.renamed)) ∧
      attributes.map table.renamed = result := by
  -- The new keys are those of the renamed attributes.
  have keys : (attributes.map table.renamed).map (·.key) =
      attributes.map (table.effective ·.key) := by
    rw [List.map_map]
    rfl
  rw [rename?, Attributes.HasDistinctKeys, keys]
  obtain ⟨idle, same⟩ | ⟨named, distinct, same⟩ |
    ⟨passed, entry, rest, split, named, -, taken, same⟩ :=
    table.convert_cases (.here .resource) attributes
  · -- A table that has none of the keys leaves the attributes, which are the renamed ones.
    simp only [same, Attempt.success?_unchanged, forall_prop_of_false idle,
      map_renamed_of_not_named idle, true_and, Option.some.injEq]
  · -- Distinct new keys are what the success is about.
    simp [same, distinct]
  · -- The key at which the rename stops stands twice among the new keys.
    have repeated : ¬ (attributes.map (table.effective ·.key)).Nodup := by
      rw [split, List.map_append, List.map_cons]
      intro distinct
      exact List.disjoint_of_nodup_append distinct taken List.mem_cons_self
    rw [same]
    exact iff_of_false (by simp [Attempt.success?]) fun clear => repeated (clear.1 named)

/-- A rename that succeeds leaves distinct keys where they were distinct before. -/
theorem hasDistinctKeys_of_rename? {attributes result : Attributes}
    (distinct : attributes.HasDistinctKeys) (success : table.rename? attributes = some result) :
    result.HasDistinctKeys := by
  obtain ⟨clear, rfl⟩ := rename?_eq_some_iff.1 success
  -- The keys are distinct by the success, or they are the ones from before.
  by_cases named : ∃ entry ∈ attributes, table.contains entry.key = true
  · exact clear named
  · rw [map_renamed_of_not_named named]
    exact distinct

end RenameTable

end SchemaUplift
