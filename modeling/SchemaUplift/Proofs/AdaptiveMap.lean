import Mathlib.Data.List.Induction
import Mathlib.Data.List.Nodup
import Std.Data.HashMap.Lemmas
import SchemaUplift.AdaptiveMap
import SchemaUplift.Proofs.Table

/-! With an index or without, an adaptive map holds what a plain list of entries holds in which each
key is set in its place. -/

namespace SchemaUplift.AdaptiveMap

variable {α : Type}

/-! ### Entries in a plain list -/

/-- Sets a key among entries: in its place if it has one, else at the end. -/
def put (key : String) (value : α) : List (String × α) → List (String × α)
  | [] => [(key, value)]
  | entry :: rest => if entry.1 = key then (key, value) :: rest else entry :: put key value rest

/-- A key without a place is set at the end. -/
theorem put_of_not_mem {key : String} {entries : List (String × α)}
    (fresh : key ∉ entries.map (·.1)) (value : α) :
    put key value entries = entries ++ [(key, value)] := by
  -- The induction follows the walk for the place of the key.
  induction entries with
  | nil => rfl
  | cons entry rest ih =>
    -- The walk passes every entry, since none of them has the key.
    rw [List.map_cons, List.mem_cons, not_or] at fresh
    rw [put, if_neg (Ne.symm fresh.1), ih fresh.2, List.cons_append]

/-- A key with a place is set there. -/
theorem put_of_getElem? {key : String} {position : Nat} {entries : List (String × α)}
    (distinct : (entries.map (·.1)).Nodup) (place : (entries.map (·.1))[position]? = some key)
    (value : α) : put key value entries = entries.set position (key, value) := by
  -- The position counts down as the walk goes on.
  induction entries generalizing position with
  | nil => simp at place
  | cons entry rest ih =>
    rw [List.map_cons, List.nodup_cons] at distinct
    cases position with
    | zero =>
      -- The place is that of the first entry, where the walk ends.
      obtain rfl : entry.1 = key := by simpa using place
      rw [put, if_pos rfl, List.set_cons_zero]
    | succ position =>
      have later : (rest.map (·.1))[position]? = some key := by simpa using place
      -- The key has its place in the rest, so the first entry has another one.
      have other : entry.1 ≠ key := by
        rintro rfl
        exact distinct.1 (List.mem_of_getElem? later)
      rw [put, if_neg other, ih distinct.2 later, List.set_cons_succ]

/-- A key that a search for its place does not find is none of the keys. -/
theorem not_mem_of_findIdx?_eq_none {key : String} {entries : List (String × α)}
    (found : entries.findIdx? (·.1 == key) = none) : key ∉ entries.map (·.1) := by
  -- A search that fails has tested every entry.
  have other := List.findIdx?_eq_none_iff.1 found
  simp only [beq_eq_false_iff_ne] at other
  rintro member
  obtain ⟨entry, within, same⟩ := List.mem_map.1 member
  exact other entry within same

/-- A key that is set keeps its place among the keys or comes last. -/
theorem map_fst_put (key : String) (value : α) (entries : List (String × α)) :
    (put key value entries).map (·.1) =
      if key ∈ entries.map (·.1) then entries.map (·.1) else entries.map (·.1) ++ [key] := by
  -- The induction follows the walk, which keeps all keys that it passes.
  induction entries with
  | nil => rfl
  | cons entry rest ih =>
    -- The walk ends at an entry with the key, and otherwise the rest decides.
    by_cases here : entry.1 = key
    · simp [put, here]
    · rw [put, if_neg here, List.map_cons, ih, List.map_cons]
      -- The first entry has another key, so the key is among all exactly if it is among the rest.
      have there : key ∈ entry.1 :: rest.map (·.1) ↔ key ∈ rest.map (·.1) := by
        rw [List.mem_cons]
        exact or_iff_right (Ne.symm here)
      by_cases later : key ∈ rest.map (·.1)
      · rw [if_pos later, if_pos (there.2 later)]
      · rw [if_neg later, if_neg (mt there.1 later), List.cons_append]

/-- Keys stay distinct when one of them, or a further one, is set. -/
theorem nodup_put {entries : List (String × α)} (distinct : (entries.map (·.1)).Nodup)
    (key : String) (value : α) : ((put key value entries).map (·.1)).Nodup := by
  -- The keys stay as they are, or the new one is none of them.
  rw [map_fst_put]
  split
  · exact distinct
  · rename_i fresh
    simpa using distinct.concat fresh

/-! ### Entries with an index -/

/-- The index tells the position of every key, and knows no other keys. -/
def Indexes (index : Std.HashMap String Nat) (keys : List String) : Prop :=
  ∀ (key : String) (position : Nat), index[key]? = some position ↔ keys[position]? = some key

namespace Indexes

variable {index : Std.HashMap String Nat} {keys : List String}

/-- Keys with an index are distinct. -/
theorem nodup (indexes : Indexes index keys) : keys.Nodup := by
  -- Two positions with one key have to be the same.
  rw [List.nodup_iff_injective_get]
  intro first second same
  -- Both positions are the one that the index tells.
  have found := (indexes _ _).2 (List.getElem?_eq_getElem first.isLt)
  have again := (indexes _ _).2 (List.getElem?_eq_getElem second.isLt)
  simp only [List.get_eq_getElem] at same
  rw [same, again] at found
  exact Fin.ext (Option.some.inj found).symm

/-- A key is among the keys exactly if the index tells a position for it. -/
theorem mem_iff (indexes : Indexes index keys) (key : String) :
    key ∈ keys ↔ ∃ position, index[key]? = some position := by
  simp only [List.mem_iff_getElem?, indexes key]

/-- The empty index is that of no keys. -/
theorem empty : Indexes ∅ [] := by
  intro key position
  simp

/-- A further key has its position after all others. -/
theorem insert (indexes : Indexes index keys) {key : String} (fresh : key ∉ keys) :
    Indexes (index.insert key keys.length) (keys ++ [key]) := by
  -- A position is told for the new key or was told before.
  intro other position
  rw [Std.HashMap.getElem?_insert, List.getElem?_append]
  by_cases same : key = other
  · -- The new key has its position behind all old ones.
    subst same
    have before : keys[position]? ≠ some key := fun place => fresh (List.mem_of_getElem? place)
    by_cases within : position < keys.length
    · simp only [beq_self_eq_true, if_true, within]
      exact iff_of_false (by simp; omega) before
    · simp only [beq_self_eq_true, if_true, within, if_false, List.getElem?_singleton]
      split <;> simp <;> omega
  · -- An old key keeps its position.
    by_cases within : position < keys.length
    · simp [same, within, indexes other position]
    · -- Past the old keys there is the new one alone.
      have beyond : keys[position]? = none := List.getElem?_eq_none (by omega)
      have untold : index[other]? ≠ some position := by simp [indexes other position, beyond]
      simp only [beq_iff_eq, same, if_false, within, List.getElem?_singleton]
      split <;> simp [untold, same]

end Indexes

/-- The index of one entry more has its key at the end. -/
theorem indexOf_concat (entries : List (String × α)) (entry : String × α) :
    indexOf (entries ++ [entry]) = (indexOf entries).insert entry.1 entries.length := by
  -- The positions are counted from the start, so the last one is the number of entries before.
  simp [indexOf, List.zipIdx_append]

/-- The index that is made for entries with distinct keys tells their positions. -/
theorem indexes_indexOf {entries : List (String × α)}
    (distinct : (entries.map (·.1)).Nodup) : Indexes (indexOf entries) (entries.map (·.1)) := by
  -- The induction follows the positions as they are entered, from the first to the last.
  induction entries using List.reverseRecOn with
  | nil => exact .empty
  | append_singleton entries entry ih =>
    -- The last entry has a key that no entry before it has.
    rw [List.map_append, List.map_singleton] at distinct ⊢
    have fresh : entry.1 ∉ entries.map (·.1) := by
      intro member
      exact List.disjoint_of_nodup_append distinct member (List.mem_singleton_self _)
    rw [indexOf_concat, ← List.length_map (f := (·.1))]
    exact (ih distinct.of_append_left).insert fresh

/-! ### Maps -/

/-- The keys are distinct, and an index tells their positions. -/
def WellFormed : AdaptiveMap α → Prop
  | .inline entries => (entries.map (·.1)).Nodup
  | .hashed entries index => Indexes index (entries.toList.map (·.1))

/-- The map without entries is well-formed, whatever its capacity. -/
theorem wellFormed_withCapacity (capacity : Nat) :
    (withCapacity capacity : AdaptiveMap α).WellFormed := by
  -- A capacity past the limit starts with an index, but that is empty too.
  rw [withCapacity]
  split
  · exact List.nodup_nil
  · exact .empty

/-- The map without entries holds none, whatever its capacity. -/
theorem toList_withCapacity (capacity : Nat) :
    (withCapacity capacity : AdaptiveMap α).toList = [] := by
  rw [withCapacity]
  split <;> rfl

namespace WellFormed

variable {map : AdaptiveMap α}

/-- The keys of a well-formed map are distinct. -/
theorem nodup (formed : map.WellFormed) : (map.toList.map (·.1)).Nodup := by
  -- A list keeps its keys distinct by itself, and an index by what it tells.
  cases map with
  | inline entries => exact formed
  | hashed entries index => exact Indexes.nodup formed

/-- A well-formed map finds under a key what stands with it. -/
theorem get?_eq_lookup (formed : map.WellFormed) (key : String) :
    map.get? key = map.toList.lookup key := by
  -- A list is searched as a plain one is, so there is something to show for an index alone.
  cases map with
  | inline entries => rfl
  | hashed entries index =>
    refine Option.ext ?_
    intro value
    rw [Table.lookup_eq_some_iff formed.nodup]
    simp only [get?, toList, Option.bind_eq_bind, Option.bind_eq_some_iff, Option.pure_def,
      Option.some.injEq, List.mem_iff_getElem?, ← Array.getElem?_toList]
    -- The index tells a position exactly if the entry there has the key.
    constructor
    · -- The entry at the position that is told has the key, by what the index tells.
      rintro ⟨position, told, entry, found, rfl⟩
      have place := (formed key position).1 told
      rw [List.getElem?_map, found] at place
      exact ⟨position, by rw [found, ← Option.some.inj place]⟩
    · -- An entry with the key stands at a position, which the index tells.
      rintro ⟨position, found⟩
      exact ⟨position, (formed key position).2 (by simp [found]), _, found, rfl⟩

/-- A well-formed map has a value for each of its keys. -/
theorem contains_iff (formed : map.WellFormed) (key : String) :
    map.contains key = true ↔ key ∈ map.toList.map (·.1) := by
  -- A key is there exactly if its lookup gives a value, and the lookup is known.
  simp [contains, formed.get?_eq_lookup, Option.isSome_iff_exists,
    Table.lookup_eq_some_iff formed.nodup]

/-- Setting a key in a well-formed map with an index sets it in the plain list. -/
theorem setHashed {entries : Array (String × α)} {index : Std.HashMap String Nat}
    (formed : (hashed entries index).WellFormed) (key : String) (value : α) :
    (setHashed entries index key value).WellFormed ∧
      (setHashed entries index key value).toList = put key value entries.toList := by
  -- The case split is on whether the index tells a position for the key.
  have distinct := Indexes.nodup formed
  rw [AdaptiveMap.setHashed]
  cases told : index[key]? with
  | some position =>
    have place := (formed key position).1 told
    have same : (entries.setIfInBounds position (key, value)).toList =
        put key value entries.toList := by
      -- The walk for the key ends at the position that the index tells.
      rw [Array.toList_setIfInBounds, put_of_getElem? distinct place]
    -- The keys are the ones from before, and so the index still fits.
    have keys : (put key value entries.toList).map (·.1) = entries.toList.map (·.1) := by
      rw [map_fst_put, if_pos (List.mem_of_getElem? place)]
    exact ⟨by rw [WellFormed, same, keys]; exact formed, same⟩
  | none =>
    -- A key that the index does not know is none of the keys, and comes last on both sides.
    have fresh : key ∉ entries.toList.map (·.1) := by
      rw [Indexes.mem_iff formed]
      simp [told]
    have same : (entries.push (key, value)).toList = put key value entries.toList := by
      rw [Array.toList_push, put_of_not_mem fresh]
    refine ⟨?_, same⟩
    -- The index gets one position more, which is that of the new entry.
    have further := Indexes.insert formed fresh
    rw [List.length_map, Array.length_toList] at further
    rw [WellFormed, same, map_fst_put, if_neg fresh]
    exact further

/-- Setting a key in a well-formed map sets it in the plain list. -/
theorem set (formed : map.WellFormed) (key : String) (value : α) :
    (map.set key value).WellFormed ∧ (map.set key value).toList = put key value map.toList := by
  -- A map with an index is settled, so what is left is a list that is searched for the key.
  cases map with
  | hashed entries index => exact formed.setHashed key value
  | inline entries =>
    cases found : entries.findIdx? (·.1 == key) with
    | some position =>
      simp only [AdaptiveMap.set, found]
      -- The place that the search finds is where the plain list sets the key.
      have place : (entries.map (·.1))[position]? = some key := by
        obtain ⟨within, same, -⟩ := List.findIdx?_eq_some_iff_getElem.1 found
        simpa [List.getElem?_eq_getElem within] using same
      have same : entries.set position (key, value) = put key value entries :=
        (put_of_getElem? formed place value).symm
      exact ⟨by rw [WellFormed, same]; exact nodup_put formed key value, same⟩
    | none =>
      -- A search that fails means that the key is new.
      have fresh := not_mem_of_findIdx?_eq_none found
      simp only [AdaptiveMap.set, found]
      -- There is room for a further key, or else the entries get their index first.
      split
      · have same := (put_of_not_mem fresh value).symm
        exact ⟨by rw [WellFormed, same]; exact nodup_put formed key value, same⟩
      · -- The index made for distinct keys is right, and then the key is set as in any map with
        -- one.
        have made : (hashed entries.toArray (indexOf entries)).WellFormed :=
          indexes_indexOf formed
        exact made.setHashed key value

end WellFormed

end SchemaUplift.AdaptiveMap
