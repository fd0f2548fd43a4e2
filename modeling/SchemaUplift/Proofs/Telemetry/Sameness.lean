import Mathlib
import SchemaUplift.Telemetry.Value

/-! Equality of attribute values, which compares floating-point numbers as numbers: it is symmetric
and transitive because the equality of those numbers is, though not every value is equal to
itself. -/

namespace SchemaUplift

/-! ### Values -/

namespace Value

mutual

/-- Which of two values is compared with the other makes no difference. -/
theorem same_symm : ∀ {a b : Value}, same a b = true → same b a = true
  -- Values of different kinds are never equal, and plain contents are compared by equality proper.
  | .absent, b, equal => by cases b <;> simp_all [same]
  | .empty, b, equal => by cases b <;> simp_all [same]
  | .string content, b, equal => by cases b <;> simp_all [same]
  | .bool flag, b, equal => by cases b <;> simp_all [same]
  | .int number, b, equal => by cases b <;> simp_all [same]
  | .bytes raw, b, equal => by cases b <;> simp_all [same]
  | .double number, b, equal => by
    -- Numbers are compared as numbers, which is symmetric though not reflexive.
    cases b with
    | double other => exact BEq.symm (show (number == other) = true from equal)
    | _ => simp [same] at equal
  | .array items, b, equal => by
    -- Containers are compared by what they hold, which is smaller than they are.
    cases b with
    | array others => exact sameItems_symm equal
    | _ => simp [same] at equal
  | .kvlist entries, b, equal => by
    cases b with
    | kvlist others => exact sameEntries_symm equal
    | _ => simp [same] at equal

/-- Which of two lists of values is compared with the other makes no difference. -/
theorem sameItems_symm : ∀ {as bs : List Value}, sameItems as bs = true → sameItems bs as = true
  | [], bs, equal => by cases bs <;> simp_all [sameItems]
  | a :: as, bs, equal => by
    cases bs with
    -- Lists of different lengths are not equal.
    | nil => simp [sameItems] at equal
    | cons b bs =>
      -- The first items are compared, and then the others.
      rw [sameItems, Bool.and_eq_true] at equal ⊢
      exact ⟨same_symm equal.1, sameItems_symm equal.2⟩

/-- Which of two lists of entries is compared with the other makes no difference. -/
theorem sameEntries_symm :
    ∀ {as bs : List (String × Value)}, sameEntries as bs = true → sameEntries bs as = true
  | [], bs, equal => by cases bs <;> simp_all [sameEntries]
  | (k, a) :: as, bs, equal => by
    cases bs with
    | nil => simp [sameEntries] at equal
    | cons entry bs =>
      obtain ⟨l, b⟩ := entry
      -- The keys are equal, and the values are compared as in a list of values.
      rw [sameEntries, Bool.and_eq_true, Bool.and_eq_true] at equal ⊢
      exact ⟨⟨BEq.symm equal.1.1, same_symm equal.1.2⟩, sameEntries_symm equal.2⟩

end

mutual

/-- Values that are equal to one and the same value are equal. -/
theorem same_trans : ∀ {a b c : Value}, same a b = true → same b c = true → same a c = true
  | .absent, b, c, equal, next => by
    -- A value that holds nothing is equal to its like alone, so the middle one is that as well.
    cases b with
    | absent => exact next
    | _ => simp [same] at equal
  | .empty, b, c, equal, next => by
    cases b with
    | empty => exact next
    | _ => simp [same] at equal
  | .string content, b, c, equal, next => by
    -- Plain contents that are equal are the same, so the first stands for the second.
    cases b <;> simp only [same, beq_iff_eq, Bool.false_eq_true] at equal
    exact equal ▸ next
  | .bool flag, b, c, equal, next => by
    cases b <;> simp only [same, beq_iff_eq, Bool.false_eq_true] at equal
    exact equal ▸ next
  | .int number, b, c, equal, next => by
    cases b <;> simp only [same, beq_iff_eq, Bool.false_eq_true] at equal
    exact equal ▸ next
  | .bytes raw, b, c, equal, next => by
    cases b <;> simp only [same, beq_iff_eq, Bool.false_eq_true] at equal
    exact equal ▸ next
  | .double number, b, c, equal, next => by
    -- Numbers are equal as numbers, so the middle one cannot be put in place of the first.
    cases b with
    | double other =>
      cases c with
      | double third =>
        exact BEq.trans (show (number == other) = true from equal)
          (show (other == third) = true from next)
      | _ => simp [same] at next
    | _ => simp [same] at equal
  | .array items, b, c, equal, next => by
    -- All three are containers of one kind, or one of the comparisons fails.
    cases b with
    | array others =>
      cases c with
      | array thirds => exact sameItems_trans equal next
      | _ => simp [same] at next
    | _ => simp [same] at equal
  | .kvlist entries, b, c, equal, next => by
    cases b with
    | kvlist others =>
      cases c with
      | kvlist thirds => exact sameEntries_trans equal next
      | _ => simp [same] at next
    | _ => simp [same] at equal

/-- Lists of values that are equal to one and the same list are equal. -/
theorem sameItems_trans : ∀ {as bs cs : List Value},
    sameItems as bs = true → sameItems bs cs = true → sameItems as cs = true
  | [], bs, cs, equal, next => by cases bs <;> simp_all [sameItems]
  | a :: as, bs, cs, equal, next => by
    -- All three lists are as long, or one of the comparisons fails.
    cases bs with
    | nil => simp [sameItems] at equal
    | cons b bs =>
      cases cs with
      | nil => simp [sameItems] at next
      | cons c cs =>
        -- Equal first items and equal rests each are a smaller case of the same statement.
        rw [sameItems, Bool.and_eq_true] at equal next ⊢
        exact ⟨same_trans equal.1 next.1, sameItems_trans equal.2 next.2⟩

/-- Lists of entries that are equal to one and the same list are equal. -/
theorem sameEntries_trans : ∀ {as bs cs : List (String × Value)},
    sameEntries as bs = true → sameEntries bs cs = true → sameEntries as cs = true
  | [], bs, cs, equal, next => by cases bs <;> simp_all [sameEntries]
  | (k, a) :: as, bs, cs, equal, next => by
    cases bs with
    | nil => simp [sameEntries] at equal
    | cons entry bs =>
      obtain ⟨l, b⟩ := entry
      cases cs with
      | nil => simp [sameEntries] at next
      | cons entry cs =>
        obtain ⟨m, c⟩ := entry
        -- Keys, values and rests each are equal by what is known of smaller parts.
        rw [sameEntries, Bool.and_eq_true, Bool.and_eq_true] at equal next ⊢
        exact ⟨⟨BEq.trans equal.1.1 next.1.1, same_trans equal.1.2 next.1.2⟩,
          sameEntries_trans equal.2 next.2⟩

end

instance : PartialEquivBEq Value where
  symm := same_symm
  trans := same_trans

mutual

/-- Whether a value is NaN or holds it somewhere. -/
def holdsNaN : Value → Bool
  | .double number => number.isNaN
  | .array items => itemsHoldNaN items
  | .kvlist entries => entriesHoldNaN entries
  | _ => false

/-- Whether an item of a list holds NaN. -/
def itemsHoldNaN : List Value → Bool
  | [] => false
  | item :: rest => holdsNaN item || itemsHoldNaN rest

/-- Whether the value of an entry of a list holds NaN. -/
def entriesHoldNaN : List (String × Value) → Bool
  | [] => false
  | (_, value) :: rest => holdsNaN value || entriesHoldNaN rest

end

mutual

/-- A value is equal to itself unless it holds NaN. -/
theorem same_self : ∀ value : Value, same value value = !holdsNaN value
  | .absent => rfl
  | .empty => rfl
  | .string content => beq_self_eq_true content
  | .bool flag => beq_self_eq_true flag
  | .int number => beq_self_eq_true number
  | .bytes raw => beq_self_eq_true raw
  | .double number => by
    -- NaN is the only number that is not equal to itself.
    rw [same, holdsNaN, Float.isNaN_eq_decide_eq_nan, Bool.eq_iff_iff, Float.beq_self_iff,
      Bool.not_eq_true', decide_eq_false_iff_not]
  | .array items => sameItems_self items
  | .kvlist entries => sameEntries_self entries

/-- A list of values is equal to itself unless an item holds NaN. -/
theorem sameItems_self : ∀ items : List Value, sameItems items items = !itemsHoldNaN items
  | [] => rfl
  | item :: rest => by
    -- NaN is held by the first item or by one of the others.
    rw [sameItems, itemsHoldNaN, same_self item, sameItems_self rest, Bool.not_or]

/-- A list of entries is equal to itself unless the value of one holds NaN. -/
theorem sameEntries_self :
    ∀ entries : List (String × Value), sameEntries entries entries = !entriesHoldNaN entries
  | [] => rfl
  | (key, value) :: rest => by
    -- Keys are equal to themselves, so that the values decide.
    rw [sameEntries, entriesHoldNaN, same_self value, sameEntries_self rest, beq_self_eq_true,
      Bool.true_and, Bool.not_or]

end

end Value

/-! ### Attributes -/

namespace Attribute

/-- Attributes are equal if their keys are the same and their values are equal. -/
theorem beq_iff {a b : Attribute} :
    (a == b) = true ↔ a.key = b.key ∧ (a.value == b.value) = true := by
  -- The comparison is defined by these two, and the keys are compared by equality proper.
  show (a.key == b.key && a.value == b.value) = true ↔ _
  rw [Bool.and_eq_true, beq_iff_eq]

instance : PartialEquivBEq Attribute where
  symm {a b} same := by
    -- Keys and values are compared apart from each other.
    have ⟨keys, values⟩ := beq_iff.1 same
    exact beq_iff.2 ⟨keys.symm, BEq.symm values⟩
  trans {a b c} same next := by
    have ⟨keys, values⟩ := beq_iff.1 same
    have ⟨nextKeys, nextValues⟩ := beq_iff.1 next
    exact beq_iff.2 ⟨keys.trans nextKeys, BEq.trans values nextValues⟩

end Attribute

/-- Lists are equal if they have equal items at equal positions. -/
theorem beq_iff_forall₂ {α : Type} [BEq α] {as bs : List α} :
    (as == bs) = true ↔ List.Forall₂ (fun a b => (a == b) = true) as bs := by
  -- Both lists are taken apart together, as they have to be as long as each other.
  induction as generalizing bs with
  | nil => cases bs <;> simp
  | cons a as ih =>
    cases bs with
    | nil => simp
    -- Equal heads and equal tails on one side are one step of the relation on the other.
    | cons b bs => rw [List.cons_beq_cons, Bool.and_eq_true, List.forall₂_cons, ih]

/-- Lists are compared item by item. -/
instance partialEquivBEqList {α : Type} [BEq α] [PartialEquivBEq α] :
    PartialEquivBEq (List α) where
  symm {as bs} same := by
    -- The comparison the other way round takes the same steps.
    induction as generalizing bs with
    | nil => cases bs <;> simp_all
    | cons a as ih =>
      cases bs with
      | nil => simp at same
      | cons b bs =>
        rw [List.cons_beq_cons, Bool.and_eq_true] at same ⊢
        exact ⟨BEq.symm same.1, ih same.2⟩
  trans {as bs cs} same next := by
    -- All three lists are taken apart together.
    induction as generalizing bs cs with
    | nil => cases bs <;> simp_all
    | cons a as ih =>
      cases bs with
      | nil => simp at same
      | cons b bs =>
        cases cs with
        | nil => simp at next
        | cons c cs =>
          -- The heads are equal by the items, and the tails by the induction.
          rw [List.cons_beq_cons, Bool.and_eq_true] at same next ⊢
          exact ⟨BEq.trans same.1 next.1, ih same.2 next.2⟩

end SchemaUplift
