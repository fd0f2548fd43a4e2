import SchemaUplift.Version

/-! The order of versions is total and transitive, and versions that are equal, however they are
spelled, compare alike with every other one. -/

namespace SchemaUplift.Version

instance : Std.TransOrd Version where
  eq_swap := compareSegments_swap _ _
  isLE_trans := compareSegments_isLE_trans

/-- Versions are equal exactly if they compare as equal. -/
theorem beq_iff {a b : Version} : a == b ↔ compare a b = .eq := by
  -- Equality is defined as comparing equal.
  simp [BEq.beq]

instance : EquivBEq Version where
  rfl := beq_iff.2 Std.ReflCmp.compare_self
  symm same := beq_iff.2 (Std.OrientedCmp.eq_symm (beq_iff.1 same))
  trans first second := beq_iff.2 (Std.TransCmp.eq_trans (beq_iff.1 first) (beq_iff.1 second))

/-- Being at most is the order. -/
@[simp] theorem atMost_iff {a b : Version} : a.atMost b = true ↔ a ≤ b := Iff.rfl

/-- A version is not at most another one exactly if the other one is older. -/
theorem not_le {a b : Version} : ¬ a ≤ b ↔ b < a := by
  -- One of the two is older exactly if the other comparison, the other way round, is not.
  show ¬ (compare a b).isLE ↔ compare b a = .lt
  have swapped : compare b a = (compare a b).swap := Std.OrientedCmp.eq_swap
  rw [swapped]
  cases compare a b <;> simp

/-- Of two versions one is older or they are equal, and only one of the three holds. -/
theorem lt_of_le_of_ne {a b : Version} (atMost : a ≤ b) (different : ¬ a == b) : a < b := by
  -- What is at most another version and not equal to it leaves one outcome of the comparison.
  show compare a b = .lt
  have le : (compare a b).isLE := atMost
  rw [beq_iff] at different
  cases compared : compare a b <;> simp_all

/-- An older version is at most the other one. -/
theorem le_of_lt {a b : Version} (older : a < b) : a ≤ b := Ordering.isLE_of_eq_lt older

/-- An older version is not an equal one. -/
theorem not_beq_of_lt {a b : Version} (older : a < b) : ¬ a == b := by
  -- The outcomes of a comparison exclude each other.
  have compared : compare a b = .lt := older
  simp [beq_iff, compared]

/-- A version is not older than itself. -/
theorem lt_irrefl (a : Version) : ¬ a < a := by
  -- A version compares with itself as equal.
  show compare a a ≠ .lt
  simp [Std.ReflCmp.compare_self]

/-- An older version of an older version is older. -/
theorem lt_of_le_of_lt {a b c : Version} (first : a ≤ b) (second : b < c) : a < c :=
  Std.TransCmp.lt_of_isLE_of_lt first second

/-- What is older than a version that is at most a third is older than the third. -/
theorem lt_of_lt_of_le {a b c : Version} (first : a < b) (second : b ≤ c) : a < c :=
  Std.TransCmp.lt_of_lt_of_isLE first second

/-- Equal versions are above the same versions. -/
theorem le_congr_left {a b : Version} (same : a == b) (c : Version) : a ≤ c ↔ b ≤ c := by
  -- A comparison with a third version has the same outcome for equal versions.
  show (compare a c).isLE ↔ (compare b c).isLE
  rw [Std.TransCmp.congr_left (beq_iff.1 same)]

end SchemaUplift.Version
