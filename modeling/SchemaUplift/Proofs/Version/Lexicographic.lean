import Mathlib.Data.List.DropRight
import SchemaUplift.Proofs.Version.Order

/-! Versions compare like endless sequences of numbers, by the first position at which they differ.
Comparing fills in zeros and hashing drops them, and both tell the same versions apart. -/

namespace SchemaUplift.Version

/-- The number at a position of a version; after the last segment come zeros without end. -/
def number (version : Version) (position : Nat) : Nat := version.segments.getD position 0

/-- The version with further segments that are zero. -/
def withZeros (version : Version) (count : Nat) : Version :=
  { version with segments := version.segments ++ List.replicate count 0 }

/-! ### Segment by segment -/

/-- What holds of two lists without segments, and of two lists if it holds of what follows their
first segments, holds of any two lists. -/
theorem segments_induction {motive : List Nat → List Nat → Prop} (nil : motive [] [])
    (step : ∀ numbers others, motive numbers.tail others.tail → motive numbers others) :
    ∀ numbers others, motive numbers others := by
  -- The first list is used up before the second one, or the other way round.
  intro numbers
  induction numbers with
  | nil =>
    intro others
    -- All of the first list is used up, and the second one is gone through.
    induction others with
    | nil => exact nil
    | cons other rest ih => exact step _ _ ih
  -- Whatever the second list has left, its tail goes with the tail of the first one.
  | cons number rest ih => exact fun others => step _ _ (ih others.tail)

/-- A comparison by first numbers comes out as less exactly if the first number is less, or the
first numbers agree and the rest is less. -/
theorem compare_then_eq_lt {x y : Nat} {rest : Ordering} :
    (compare x y).then rest = .lt ↔ x < y ∨ x = y ∧ rest = .lt := by
  rw [Ordering.then_eq_lt, Nat.compare_eq_lt, Nat.compare_eq_eq]

/-- A comparison by first numbers comes out as equal exactly if they agree and the rest is equal. -/
theorem compare_then_eq_eq {x y : Nat} {rest : Ordering} :
    (compare x y).then rest = .eq ↔ x = y ∧ rest = .eq := by
  rw [Ordering.then_eq_eq, Nat.compare_eq_eq]

/-- The later numbers of a list are those of its tail. -/
theorem getD_succ_eq_tail (numbers : List Nat) (position : Nat) :
    numbers.getD (position + 1) 0 = numbers.tail.getD position 0 := by
  -- Without numbers both sides are zero.
  cases numbers <;> rfl

/-- A list is less than another one exactly if it has the lesser number at the first position at
which they differ. -/
theorem compareSegments_eq_lt_iff (numbers others : List Nat) :
    compareSegments numbers others = .lt ↔
      ∃ position, (∀ earlier < position, numbers.getD earlier 0 = others.getD earlier 0) ∧
        numbers.getD position 0 < others.getD position 0 := by
  -- Each step compares the numbers at the first position and leaves the later ones to the tails.
  induction numbers, others using segments_induction with
  | nil => simp [compareSegments]
  | step numbers others ih =>
    rw [compareSegments_eq, compare_then_eq_lt, ih, List.headD_eq_getD, List.headD_eq_getD]
    simp only [← getD_succ_eq_tail]
    constructor
    · rintro (less | ⟨same, position, before, less⟩)
      · -- The first numbers differ already.
        exact ⟨0, by simp, less⟩
      · -- What is at a position of the tails is one position further in the lists.
        refine ⟨position + 1, fun earlier within => ?_, less⟩
        cases earlier with
        | zero => exact same
        | succ earlier => exact before earlier (by omega)
    · -- The first position with a difference is the first of all, or it lies in the tails.
      rintro ⟨position, before, less⟩
      cases position with
      | zero => exact .inl less
      | succ position =>
        exact .inr ⟨before 0 (by omega), position,
          fun earlier within => before (earlier + 1) (by omega), less⟩

/-- Lists are equal exactly if they have the same number at every position. -/
theorem compareSegments_eq_eq_iff (numbers others : List Nat) :
    compareSegments numbers others = .eq ↔
      ∀ position, numbers.getD position 0 = others.getD position 0 := by
  induction numbers, others using segments_induction with
  | nil => simp [compareSegments]
  | step numbers others ih =>
    rw [compareSegments_eq, compare_then_eq_eq, ih, List.headD_eq_getD, List.headD_eq_getD]
    simp only [← getD_succ_eq_tail]
    -- A position is the first one or lies in the tails.
    constructor
    · -- The first numbers are equal, and the tails are equal at every position.
      rintro ⟨same, later⟩ (_ | position)
      · exact same
      · exact later position
    · -- What holds at every position holds at the first one and in the tails.
      exact fun same => ⟨same 0, fun position => same (position + 1)⟩

/-! ### Significant segments -/

/-- A number before significant segments is significant unless it is zero and they are none. -/
def prependSignificant (number : Nat) (rest : List Nat) : List Nat :=
  if number = 0 ∧ rest = [] then [] else number :: rest

/-- The significant segments are the first number and then those of the tail, if any of these is
significant. -/
theorem rdropWhile_zero_eq (numbers : List Nat) : numbers.rdropWhile (· == 0) =
    prependSignificant (numbers.headD 0) (numbers.tail.rdropWhile (· == 0)) := by
  cases numbers with
  | nil => rfl
  | cons number rest =>
    -- The zeros at the end of the rest are dropped first, and the number only after all of it.
    simp only [List.rdropWhile, prependSignificant, List.headD_cons, List.tail_cons,
      List.reverse_cons, List.dropWhile_append, List.reverse_eq_nil_iff, List.isEmpty_iff]
    split <;> rename_i gone <;> by_cases zero : number = 0 <;> simp [gone, zero]

/-- Significant segments tell what stands first and what follows. -/
theorem prependSignificant_inj {number other : Nat} {rest others : List Nat} :
    prependSignificant number rest = prependSignificant other others ↔
      number = other ∧ rest = others := by
  -- Only a zero before nothing is left out, and a list that is not empty begins with its number.
  simp only [prependSignificant]
  split <;> split <;> simp_all

/-- Lists are equal exactly if their significant segments are the same. -/
theorem compareSegments_eq_eq_iff_rdropWhile (numbers others : List Nat) :
    compareSegments numbers others = .eq ↔
      numbers.rdropWhile (· == 0) = others.rdropWhile (· == 0) := by
  -- Both sides compare the first numbers, and then what follows them.
  induction numbers, others using segments_induction with
  | nil => simp [compareSegments]
  | step numbers others ih =>
    rw [compareSegments_eq, compare_then_eq_eq, ih, rdropWhile_zero_eq numbers,
      rdropWhile_zero_eq others, prependSignificant_inj]

/-! ### The order of versions -/

/-- Versions are equal exactly if their significant segments are the same. -/
theorem beq_iff_significant {a b : Version} : a == b ↔ a.significant = b.significant :=
  beq_iff.trans (compareSegments_eq_eq_iff_rdropWhile _ _)

/-- A version is equal to the one with further zeros. -/
theorem beq_withZeros (version : Version) (count : Nat) : version.withZeros count == version := by
  refine beq_iff.2 ((compareSegments_eq_eq_iff _ _).2 fun position => ?_)
  simp only [withZeros, List.getD_eq_getElem?_getD, List.getElem?_append, List.getElem?_replicate]
  -- Past the segments of the version, both sides are zero.
  split
  · -- The position is within the segments of the version.
    rfl
  · -- The position is among the added zeros, or past them.
    split <;> simp_all

/-- Further zeros on either side do not change a comparison. -/
theorem compare_withZeros (a b : Version) (first second : Nat) :
    compare (a.withZeros first) (b.withZeros second) = compare a b :=
  (Std.TransCmp.congr_left (beq_iff.1 (a.beq_withZeros first))).trans
    (Std.TransCmp.congr_right (beq_iff.1 (b.beq_withZeros second)))

instance : LawfulHashable Version where
  hash_eq _ _ same := congrArg (fun numbers : List Nat => hash numbers) (beq_iff_significant.1 same)

/-- Of two versions one is at most the other. -/
theorem le_or_le (a b : Version) : a ≤ b ∨ b ≤ a := by
  -- What is not at most is greater.
  by_cases atMost : a ≤ b
  · exact .inl atMost
  · exact .inr (le_of_lt (not_le.1 atMost))

/-- Versions are equal exactly if each is at most the other. -/
theorem beq_iff_le_and_le {a b : Version} : a == b ↔ a ≤ b ∧ b ≤ a := by
  show _ ↔ (compare a b).isLE ∧ (compare b a).isLE
  have swapped : compare b a = (compare a b).swap := Std.OrientedCmp.eq_swap
  -- Only equality is at most in both directions.
  rw [beq_iff, swapped]
  cases compare a b <;> simp

/-- Versions are in the lexicographic order of their numbers, zeros without end included. The order
is total, transitive and antisymmetric up to equality, and further zeros do not matter to it.
Versions are equal exactly if they have the same significant segments, and these are all that is
hashed. -/
theorem compare_lexicographic :
    (∀ a b : Version, compare a b = .lt ↔
      ∃ position, (∀ earlier < position, a.number earlier = b.number earlier) ∧
        a.number position < b.number position) ∧
    (∀ a b : Version, compare a b = .eq ↔ ∀ position, a.number position = b.number position) ∧
    (∀ a b : Version, compare a b = .gt ↔ compare b a = .lt) ∧
    (∀ a b : Version, a ≤ b ∨ b ≤ a) ∧
    (∀ a b c : Version, a ≤ b → b ≤ c → a ≤ c) ∧
    (∀ a b : Version, a == b ↔ a ≤ b ∧ b ≤ a) ∧
    (∀ (a b : Version) (first second : Nat),
      compare (a.withZeros first) (b.withZeros second) = compare a b) ∧
    (∀ a b : Version, a == b ↔ a.significant = b.significant) ∧
    (∀ a b : Version, a == b → hash a = hash b) ∧
    ∀ a : Version, hash a = hash a.significant := by
  refine ⟨fun a b => compareSegments_eq_lt_iff _ _, fun a b => compareSegments_eq_eq_iff _ _, ?_,
    le_or_le, fun a b c => compareSegments_isLE_trans, fun a b => beq_iff_le_and_le,
    compare_withZeros, fun a b => beq_iff_significant, fun a b => hash_eq, fun a => rfl⟩
  -- Comparing the other way round swaps the outcome.
  intro a b
  exact Std.OrientedCmp.gt_iff_lt

/-- Version 1.9 comes before 1.10, which comes before 1.10.0.1; zeros at the end do not matter. -/
theorem compare_lexicographic_releases :
    let nine : Version := ⟨[1, 9], "1.9"⟩
    let ten : Version := ⟨[1, 10], "1.10"⟩
    let tenLong : Version := ⟨[1, 10, 0, 0], "1.10.0.0"⟩
    let later : Version := ⟨[1, 10, 0, 1], "1.10.0.1"⟩
    (nine ≤ ten ∧ ten ≤ later ∧ nine ≤ later) ∧ ten == tenLong ∧ hash ten = hash tenLong := by
  intro nine ten tenLong later
  obtain ⟨-, -, -, -, trans, -, -, -, hashed, -⟩ := compare_lexicographic
  -- Ten is more than nine, though it has the smaller first digit.
  have first : nine ≤ ten := by decide
  have second : ten ≤ later := by decide
  have same : ten == tenLong := by decide
  exact ⟨⟨first, second, trans nine ten later first second⟩, same, hashed ten tenLong same⟩

end SchemaUplift.Version
