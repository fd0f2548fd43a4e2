import SchemaUplift.Proofs.Rule.Series

/-! The groups of a list of points are a partition of its positions: points are together exactly if
they have the same attributes in some order. -/

namespace SchemaUplift

/-- Attributes that hold no NaN are equal to themselves, in the order that they have. -/
theorem Attributes.isReordering_self {attributes : Attributes}
    (comparable : ∀ entry ∈ attributes, entry.value.holdsNaN = false) :
    attributes.IsReordering attributes := by
  -- Every entry is matched with itself, in the order as it is.
  refine ⟨attributes, .refl _, beq_iff_forall₂.2 (List.forall₂_same.2 fun entry member => ?_)⟩
  refine Attribute.beq_iff.2 ⟨rfl, (Value.same_self entry.value).trans ?_⟩
  rw [comparable entry member]
  rfl

/-! ### Groups -/

namespace Series

variable {points : List NumberPoint} {series next : Series} {position : Nat}

/-- A position is in some group exactly if it is one of the list. -/
theorem exists_mem_positions_iff :
    (∃ series ∈ ofPoints points, position ∈ series.positions) ↔ position < points.length := by
  -- The positions of all groups together are the positions of the points.
  have all := flatMap_positions_grouped points.zipIdx
  rw [List.zipIdx_map_snd, ← List.range_eq_range'] at all
  exact List.mem_flatMap.symm.trans (all.mem_iff.trans List.mem_range)

/-- A position is in one group only. -/
theorem place_unique {place other : Nat} (found : (ofPoints points)[place]? = some series)
    (held : (ofPoints points)[other]? = some next) (inside : position ∈ series.positions)
    (within : position ∈ next.positions) : place = other := by
  obtain ⟨below, rfl⟩ := List.getElem?_eq_some_iff.1 found
  obtain ⟨bounded, rfl⟩ := List.getElem?_eq_some_iff.1 held
  have apart := List.pairwise_iff_getElem.1 (pairwise_ofPoints points)
  -- Of two places one comes first, and the groups there have no position in common.
  rcases Nat.lt_trichotomy place other with before | same | after
  · exact absurd within (apart place other below bounded before position inside)
  · exact same
  · exact absurd inside (apart other place bounded below after position within)

/-- A group has the positions of all points that belong to one of them, ascending. -/
theorem exists_joins_of_mem (member : series ∈ ofPoints points) :
    series.positions.Pairwise (· < ·) ∧
      ∃ first ∈ points.zipIdx, ∀ placed ∈ points.zipIdx,
        placed.2 ∈ series.positions ↔ PlacedPoint.Joins placed first := by
  obtain ⟨first, held, fellows, within, positions, joins⟩ :=
    -- All points of a group belong with the one that opened it.
    exists_of_mem_grouped (nodup_zipIdx points) member
  refine ⟨?_, first, held, fun placed inside => ?_⟩
  · -- The points of a group are a part of the list, in its order.
    rw [positions]
    exact List.pairwise_map.2 ((pairwise_zipIdx points).sublist within)
  · -- A point of the list has its position in the group exactly if it is one of the fellows.
    have fellow_iff : placed ∈ fellows ↔ PlacedPoint.Joins placed first :=
      (joins placed).trans (and_iff_right inside)
    rw [positions, List.mem_map, ← fellow_iff]
    constructor
    · rintro ⟨other, fellow, same⟩
      exact PlacedPoint.eq_of_position_eq (within.subset fellow) inside same ▸ fellow
    · exact fun fellow => ⟨placed, fellow, rfl⟩

/-- Points are in one group exactly if they belong together. -/
theorem exists_mem_positions_and_iff {placed other : PlacedPoint}
    (inside : placed ∈ points.zipIdx) (within : other ∈ points.zipIdx) :
    (∃ series ∈ ofPoints points, placed.2 ∈ series.positions ∧ other.2 ∈ series.positions) ↔
      placed.Joins other := by
  constructor
  · -- Both points belong with the first one of their group, and so with each other.
    rintro ⟨series, member, own, fellow⟩
    obtain ⟨-, first, -, joins⟩ := exists_joins_of_mem member
    exact ((joins placed inside).1 own).trans ((joins other within).1 fellow).symm
  · intro joined
    -- The group of one point has the other one, too.
    obtain ⟨below, -⟩ := List.getElem?_eq_some_iff.1 (List.mem_zipIdx_iff_getElem?.1 inside)
    obtain ⟨series, member, own⟩ := exists_mem_positions_iff.2 below
    obtain ⟨-, first, -, joins⟩ := exists_joins_of_mem member
    exact ⟨series, member, own,
      (joins other within).2 (joined.symm.trans ((joins placed inside).1 own))⟩

end Series

/-- Groups of positions are the partition of points by their attributes. -/
structure IsPartition (points : List NumberPoint) (groups : List (List Nat)) : Prop where
  /-- Every position of the list is in exactly one group. -/
  existsUnique : ∀ position < points.length,
    ∃! place : Nat, ∃ group ∈ groups[place]?, position ∈ group
  /-- A group holds no other positions. -/
  lt_length : ∀ group ∈ groups, ∀ position ∈ group, position < points.length
  /-- Positions ascend in a group. -/
  ascending : ∀ group ∈ groups, group.Pairwise (· < ·)
  /-- No group is empty. -/
  ne_nil : ∀ group ∈ groups, group ≠ []
  /-- Positions are in one group if the attributes of one point are those of the other in some
  order. -/
  together_iff : ∀ position other : Nat, ∀ point ∈ points[position]?, ∀ next ∈ points[other]?,
    (∃ group ∈ groups, position ∈ group ∧ other ∈ group) ↔
      point.attributes.IsReordering next.attributes

/-- Points with distinct keys and comparable values are partitioned by their attributes. -/
theorem Series.isPartition_ofPoints {points : List NumberPoint}
    (distinct : ∀ point ∈ points, point.attributes.HasDistinctKeys)
    (comparable : ∀ point ∈ points, ∀ entry ∈ point.attributes, entry.value.holdsNaN = false) :
    IsPartition points ((ofPoints points).map (·.positions)) where
  existsUnique position below := by
    -- The position has its group, and no group at another place has it.
    obtain ⟨series, member, inside⟩ := exists_mem_positions_iff.2 below
    obtain ⟨place, found⟩ := List.mem_iff_getElem?.1 member
    refine ⟨place, ⟨series.positions, by simp [found], inside⟩, ?_⟩
    rintro other ⟨group, held, within⟩
    rw [List.getElem?_map, Option.mem_def, Option.map_eq_some_iff] at held
    obtain ⟨next, held, rfl⟩ := held
    exact place_unique held found within inside
  lt_length := by
    -- What is in a group is one of the positions of the list.
    rw [List.forall_mem_map]
    exact fun series member position inside =>
      exists_mem_positions_iff.1 ⟨series, member, inside⟩
  ascending := by
    -- A group has its positions as the list has its points.
    rw [List.forall_mem_map]
    exact fun series member => (exists_joins_of_mem member).1
  ne_nil := by
    rw [List.forall_mem_map]
    intro series member
    -- The point to which all of a group belong is one of them.
    obtain ⟨-, first, held, joins⟩ := exists_joins_of_mem member
    exact List.ne_nil_of_mem ((joins first held).2 (Or.inl rfl))
  together_iff position other point found next held := by
    -- Both points stand in the list at their positions.
    have inside : (point, position) ∈ points.zipIdx := List.mk_mem_zipIdx_iff_getElem?.2 found
    have within : (next, other) ∈ points.zipIdx := List.mk_mem_zipIdx_iff_getElem?.2 held
    have own := List.mem_of_getElem? found
    have fellow := List.mem_of_getElem? held
    simp only [List.mem_map, exists_exists_and_eq_and]
    -- Being in one group is belonging together, which is having the same series or being one point.
    rw [Series.exists_mem_positions_and_iff inside within, PlacedPoint.Joins,
      NumberPoint.sameSeries_iff_isReordering (distinct next fellow)]
    -- A point belongs to itself, which its attributes do not contradict.
    refine or_iff_right_of_imp ?_
    rintro ⟨⟩
    exact Attributes.isReordering_self (comparable point own)

/-- Points without a reading: two with the same attributes in either order, one with a text for the
number in them, and one without attributes. -/
def sameTexts : List NumberPoint :=
  [[⟨"code", .int 1⟩, ⟨"zone", .string "1"⟩], [⟨"zone", .string "1"⟩, ⟨"code", .int 1⟩],
    [⟨"code", .string "1"⟩, ⟨"zone", .string "1"⟩], []].map fun attributes =>
      ⟨attributes, 0, 0, 0, none⟩

/-- Order keeps no points apart, but a number is apart from its text. -/
theorem Series.isPartition_ofPoints_sameTexts : IsPartition sameTexts [[0, 1], [2], [3]] := by
  -- The groups are found by evaluation.
  have groups : (ofPoints sameTexts).map (·.positions) = [[0, 1], [2], [3]] := by cbv
  rw [← groups]
  refine isPartition_ofPoints ?_ ?_
  · -- The keys of each point are distinct.
    simp [sameTexts, Attributes.HasDistinctKeys]
  · -- No value is a number that could be NaN.
    simp [sameTexts, Value.holdsNaN]

end SchemaUplift
