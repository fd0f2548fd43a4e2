import Mathlib.Data.Finset.Card
import SchemaUplift.Proofs.AdaptiveMap

/-! Whatever keys are set one after the other, an adaptive map cannot be told from a plain list in
which each key is set in its place. It has an index once it holds more keys than a short list may,
or if it was made for more. -/

namespace SchemaUplift.AdaptiveMap

variable {α : Type}

/-! ### One key -/

/-- The map with an index, which it gets if it has none. -/
def promote : AdaptiveMap α → AdaptiveMap α
  | .inline entries => .hashed entries.toArray (indexOf entries)
  | .hashed entries index => .hashed entries index

/-- Sets a key by a procedure that starts over once a full list has got its index, and gives up if
it was to start more often than the given number of times. -/
def setWithin : Nat → AdaptiveMap α → String → α → Option (AdaptiveMap α)
  | 0, _, _, _ => none
  | starts + 1, .inline entries, key, value =>
    match entries.findIdx? (·.1 == key) with
    | some position => some (.inline (entries.set position (key, value)))
    | none =>
      if entries.length < inlineLimit then some (.inline (entries ++ [(key, value)]))
      else setWithin starts (promote (.inline entries)) key value
  | _ + 1, .hashed entries index, key, value => some (setHashed entries index key value)

/-- Starting twice is enough to set any key, as a map with an index sets it at the first start. -/
theorem setWithin_eq_some (further : Nat) (map : AdaptiveMap α) (key : String) (value : α) :
    setWithin (further + 2) map key value = some (map.set key value) := by
  -- The procedure makes the same choices as setting does, by the form of the map.
  cases map with
  | hashed entries index => rfl
  | inline entries =>
    rw [setWithin, set]
    cases entries.findIdx? (·.1 == key) with
    | some position => rfl
    | none =>
      -- Only a full list starts over, and by then it has its index.
      dsimp only
      split <;> rfl

/-- The size of a map is the length of its list. -/
theorem length_toList (map : AdaptiveMap α) : map.toList.length = map.size := by
  cases map <;> rfl

/-- A list is one longer after a key is set that it did not have, and else as long as before. -/
theorem length_put (key : String) (value : α) (entries : List (String × α)) :
    (put key value entries).length =
      if key ∈ entries.map (·.1) then entries.length else entries.length + 1 := by
  -- The keys tell the length, and setting a key keeps the keys or adds one.
  rw [← List.length_map (f := (·.1)), map_fst_put]
  split <;> simp

namespace WellFormed

variable {map : AdaptiveMap α}

/-- A map is one larger after a key is set that it did not have, and else as large as before. -/
theorem size_set (formed : map.WellFormed) (key : String) (value : α) :
    (map.set key value).size =
      if key ∈ map.toList.map (·.1) then map.size else map.size + 1 := by
  -- Both sizes are lengths of lists, and the list of the new map is known.
  rw [← length_toList, (formed.set key value).2, length_put, length_toList]

/-- A map with an index keeps it, and a list without one gets it exactly if a further key makes it
longer than a short list may be. -/
theorem isInline_set_iff (formed : map.WellFormed)
    (short : map.isInline = true → map.size ≤ inlineLimit) (key : String) (value : α) :
    (map.set key value).isInline = true ↔
      map.isInline = true ∧ (map.set key value).size ≤ inlineLimit := by
  -- The size decides, so the case split is on the form the map has before.
  have grown := formed.size_set key value
  cases map with
  | hashed entries index =>
    -- An index is never given up, in whichever place the key is set.
    rw [AdaptiveMap.set, AdaptiveMap.setHashed]
    cases index[key]? <;> simp [isInline]
  | inline entries =>
    have fits : entries.length ≤ inlineLimit := short rfl
    cases found : entries.findIdx? (·.1 == key) with
    -- A key that has its place is set there, in a full list too.
    | some position => simpa [AdaptiveMap.set, found, isInline, size] using fits
    | none =>
      -- The map gets larger by the one key that it did not have.
      rw [toList, if_neg (not_mem_of_findIdx?_eq_none found)] at grown
      rw [grown, AdaptiveMap.set, found]
      dsimp only
      -- A list with room stays one, and a full one becomes too long.
      split
      · -- With room the map keeps its form, and its size is within the limit.
        rename_i room
        exact iff_of_true rfl ⟨rfl, room⟩
      · -- A full list gets its index, and its size is past the limit.
        rename_i full
        refine iff_of_false ?_ (fun fit => full fit.2)
        rw [AdaptiveMap.setHashed]
        split <;> simp [isInline]

end WellFormed

/-- Copying writes the entries over the first slots, as many as there are of both. -/
theorem getElem?_copyTo (map : AdaptiveMap α) (slots : List (String × α)) (position : Nat) :
    (map.copyTo slots)[position]? =
      if position < min map.size slots.length then map.toList[position]? else slots[position]? := by
  -- Both parts of the copied list are read at the position.
  rw [copyTo, ← length_toList, List.getElem?_append, List.length_take, List.getElem?_take,
    List.getElem?_drop]
  rcases Nat.le_total map.toList.length slots.length with room | full
  · -- All entries have a slot, and the slots behind them are in their places.
    rw [Nat.min_eq_left room, Nat.min_eq_right room]
    split
    · rw [if_pos (by omega)]
    · congr 1
      omega
  · -- All slots are written, and there is nothing behind them.
    rw [Nat.min_eq_right full, Nat.min_eq_left full]
    split
    · rfl
    · rw [List.getElem?_eq_none (by omega), List.getElem?_eq_none (by omega)]

/-! ### Keys in a row -/

/-- The map in which keys are set one after the other. -/
def ofCalls (capacity : Nat) (calls : List (String × α)) : AdaptiveMap α :=
  calls.foldl (fun map call => map.set call.1 call.2) (withCapacity capacity)

/-- The plain list in which keys are set one after the other. -/
def putAll (calls : List (String × α)) : List (String × α) :=
  calls.foldl (fun entries call => put call.1 call.2 entries) []

theorem ofCalls_concat (capacity : Nat) (calls : List (String × α)) (call : String × α) :
    ofCalls capacity (calls ++ [call]) = (ofCalls capacity calls).set call.1 call.2 :=
  List.foldl_concat ..

theorem putAll_concat (calls : List (String × α)) (call : String × α) :
    putAll (calls ++ [call]) = put call.1 call.2 (putAll calls) :=
  List.foldl_concat ..

/-- Whatever keys are set, the map is well-formed and holds what the plain list holds. -/
theorem ofCalls_eq_putAll (capacity : Nat) (calls : List (String × α)) :
    (ofCalls capacity calls).WellFormed ∧ (ofCalls capacity calls).toList = putAll calls := by
  -- The induction is on the calls from the last one, so that each step sets one key.
  induction calls using List.reverseRecOn with
  -- No calls leave the empty map, whatever its capacity.
  | nil => exact ⟨wellFormed_withCapacity capacity, toList_withCapacity capacity⟩
  | append_singleton calls call ih =>
    -- One more call sets one key in a well-formed map.
    obtain ⟨formed, same⟩ := ih.1.set call.1 call.2
    rw [ofCalls_concat, putAll_concat, ← ih.2]
    exact ⟨formed, same⟩

/-- The plain list has exactly the keys that were set. -/
theorem mem_keys_putAll {calls : List (String × α)} {key : String} :
    key ∈ (putAll calls).map (·.1) ↔ key ∈ calls.map (·.1) := by
  -- One more call adds its key, if it is not there yet.
  induction calls using List.reverseRecOn with
  | nil => rfl
  | append_singleton calls call ih =>
    rw [putAll_concat, map_fst_put, List.map_append, List.mem_append, ← ih]
    -- A key that is set again was there before.
    split <;> grind

/-- The plain list has each key once. -/
theorem nodup_putAll (calls : List (String × α)) : ((putAll calls).map (·.1)).Nodup := by
  -- It is what a well-formed map holds, and any capacity will do.
  obtain ⟨formed, same⟩ := ofCalls_eq_putAll 0 calls
  rw [← same]
  exact formed.nodup

/-- The plain list is as long as there are different keys that were set. -/
theorem length_putAll (calls : List (String × α)) :
    (putAll calls).length = (calls.map (·.1)).toFinset.card := by
  -- Distinct keys are counted by the set they make, which is the set of keys that were called.
  rw [← List.length_map (f := (·.1)), ← List.toFinset_card_of_nodup (nodup_putAll calls)]
  congr 1
  ext key
  rw [List.mem_toFinset, List.mem_toFinset, mem_keys_putAll]

/-- A map has no index exactly if it was made for a short list and is one. -/
theorem isInline_ofCalls_iff (capacity : Nat) (calls : List (String × α)) :
    (ofCalls capacity calls).isInline = true ↔
      capacity ≤ inlineLimit ∧ (ofCalls capacity calls).size ≤ inlineLimit := by
  -- The induction follows the calls, and each step sets one key.
  induction calls using List.reverseRecOn with
  | nil =>
    -- An empty map is short, so the capacity alone decides.
    show (withCapacity capacity).isInline = true ↔ _ ∧ (withCapacity capacity).size ≤ _
    rw [withCapacity]
    split <;> simp_all [isInline, size]
  | append_singleton calls call ih =>
    have formed := (ofCalls_eq_putAll capacity calls).1
    -- The map does not get smaller, so a list that is short now was short before.
    have grows : (ofCalls capacity calls).size ≤
        ((ofCalls capacity calls).set call.1 call.2).size := by
      rw [formed.size_set]
      split <;> omega
    -- The map stays without an index if it had none and does not get too long.
    rw [ofCalls_concat, formed.isInline_set_iff (fun inline => (ih.1 inline).2), ih]
    omega

/-- Whatever keys are set, a map agrees with the plain list: on the value of each key and whether it
has one, on the number and the order of the entries, and on what is copied from it. Its keys are
distinct, an index tells their positions, and a further key is set in at most two starts. It has no
index exactly if it was made for at most twenty keys and at most twenty different ones were set. -/
theorem ofCalls_agrees (capacity : Nat) (calls : List (String × α)) :
    let map := ofCalls capacity calls
    let plain := putAll calls
    (∀ key, map.get? key = plain.lookup key ∧ map.contains key = (plain.lookup key).isSome) ∧
    (map.size = plain.length ∧ map.toList = plain) ∧
    (∀ (slots : List (String × α)) (position : Nat), (map.copyTo slots)[position]? =
      if position < min plain.length slots.length then plain[position]? else slots[position]?) ∧
    ((map.toList.map (·.1)).Nodup ∧ map.WellFormed) ∧
    (∀ (further : Nat) (key : String) (value : α),
      setWithin (further + 2) map key value = some (map.set key value)) ∧
    (map.isInline = true ↔ capacity ≤ 20 ∧ (calls.map (·.1)).toFinset.card ≤ 20) := by
  intro map plain
  obtain ⟨formed, same⟩ := ofCalls_eq_putAll capacity calls
  -- What is said of lists is said of the map, since its list is the plain one.
  have size : map.size = plain.length := by rw [← length_toList, same]
  refine ⟨?_, ⟨size, same⟩, ?_, ⟨formed.nodup, formed⟩, ?_, ?_⟩
  · -- A lookup in a well-formed map is one in its list.
    intro key
    have found : map.get? key = plain.lookup key := by rw [formed.get?_eq_lookup, same]
    exact ⟨found, by rw [contains, found]⟩
  · -- Copying writes the entries of the list.
    intro slots position
    rw [getElem?_copyTo, size, same]
  · exact fun further => setWithin_eq_some further map
  · -- The number of distinct keys is the size.
    rw [isInline_ofCalls_iff, ← length_putAll, ← size]
    rfl

end SchemaUplift.AdaptiveMap
