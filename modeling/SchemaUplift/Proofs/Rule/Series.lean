import SchemaUplift.Proofs.Rename
import SchemaUplift.Proofs.Rule.Sweep
import SchemaUplift.Proofs.Telemetry.Sameness

/-! The time series of a list of points, told by their attributes and times alone, and what becomes
of their points when readings become changes. How points are grouped and sorted on the way does not
matter to the result. -/

namespace SchemaUplift

/-! ### Points with equal attributes -/

/-- The values of a key, in order. -/
def Attributes.valuesOf (attributes : Attributes) (key : String) : List Value :=
  (attributes.filter (·.key == key)).map (·.value)

/-- Points are of one series if they have equal attributes: each key has equal values in both.
Points with distinct keys have equal sets of attributes then; where a key repeats, its values have
an order. -/
def NumberPoint.SameSeries (point other : NumberPoint) : Prop :=
  ∀ key, (point.attributes.valuesOf key == other.attributes.valuesOf key) = true

namespace Attributes

/-- Without attributes no key has a value. -/
@[simp] theorem valuesOf_nil (key : String) : valuesOf [] key = [] := rfl

/-- The first attribute adds its value to those of its own key. -/
theorem valuesOf_cons (first : Attribute) (rest : Attributes) (key : String) :
    valuesOf (first :: rest) key =
      if first.key = key then first.value :: valuesOf rest key else valuesOf rest key := by
  unfold valuesOf
  -- The first attribute passes the filter by the key or not.
  by_cases same : first.key = key <;> simp [same]

/-- A key without values is the key of no attribute. -/
theorem valuesOf_eq_nil_iff {attributes : Attributes} {key : String} :
    attributes.valuesOf key = [] ↔ ∀ entry ∈ attributes, entry.key ≠ key := by
  simp [valuesOf]

/-- Equal lists of attributes have equal values of each key. -/
theorem valuesOf_beq_of_beq {attributes others : Attributes} (same : (attributes == others) = true)
    (key : String) : (attributes.valuesOf key == others.valuesOf key) = true := by
  -- Both lists are walked together, and first attributes have the same key.
  induction attributes generalizing others with
  | nil =>
    cases others with
    | nil => rfl
    | cons b others => simp at same
  | cons a attributes ih =>
    cases others with
    | nil => simp at same
    | cons b others =>
      rw [List.cons_beq_cons, Bool.and_eq_true, Attribute.beq_iff] at same
      obtain ⟨⟨keys, values⟩, same⟩ := same
      -- The first attributes add equal values to the same key.
      rw [valuesOf_cons, valuesOf_cons, ← keys]
      split
      · rw [List.cons_beq_cons, Bool.and_eq_true]
        exact ⟨values, ih same⟩
      · exact ih same

/-- The first key of a sorted list is the smallest of all keys that have equal values there. -/
theorem key_le_of_valuesOf_beq {a b : Attribute} {attributes others : Attributes}
    (sorted : (a :: attributes).Pairwise fun a b => a.key ≤ b.key)
    (same : ∀ key, (valuesOf (a :: attributes) key == valuesOf (b :: others) key) = true) :
    a.key ≤ b.key := by
  -- The other key has a value on this side as well, so that some attribute here has it.
  have occurs : valuesOf (a :: attributes) b.key ≠ [] := by
    intro none
    have values := same b.key
    rw [none, valuesOf_cons, if_pos rfl] at values
    simp at values
  -- That no attribute has it would leave it without values.
  simp only [Ne, valuesOf_eq_nil_iff, not_forall, not_not] at occurs
  obtain ⟨entry, member, key⟩ := occurs
  rw [← key]
  -- The attribute is the first one, or one behind it with a key that is no smaller.
  rcases List.mem_cons.1 member with rfl | later
  · exact String.le_refl _
  · exact (List.pairwise_cons.1 sorted).1 entry later

/-- Lists of attributes sorted by their keys are equal if each key has equal values. -/
theorem beq_of_valuesOf_beq {attributes others : Attributes}
    (sorted : attributes.Pairwise fun a b => a.key ≤ b.key)
    (othersSorted : others.Pairwise fun a b => a.key ≤ b.key)
    (same : ∀ key, (attributes.valuesOf key == others.valuesOf key) = true) :
    (attributes == others) = true := by
  -- Taking the first attributes off leaves sorted lists that again have equal values.
  induction attributes generalizing others with
  | nil =>
    cases others with
    | nil => rfl
    | cons b others =>
      -- A list without attributes has no value of the other first key.
      have values := same b.key
      rw [valuesOf_cons, if_pos rfl] at values
      simp at values
  | cons a attributes ih =>
    cases others with
    | nil =>
      -- The same holds the other way round.
      have values := same a.key
      rw [valuesOf_cons, if_pos rfl] at values
      simp at values
    | cons b others =>
      -- Each of the two first keys is the smallest on both sides.
      have keys : a.key = b.key := String.le_antisymm (key_le_of_valuesOf_beq sorted same)
        (key_le_of_valuesOf_beq othersSorted fun key => BEq.symm (same key))
      -- The first values of the common first key are equal.
      have first := same a.key
      rw [valuesOf_cons, valuesOf_cons, if_pos rfl, if_pos keys.symm, List.cons_beq_cons,
        Bool.and_eq_true] at first
      rw [List.cons_beq_cons, Bool.and_eq_true, Attribute.beq_iff]
      refine ⟨⟨keys, first.1⟩, ih sorted.of_cons othersSorted.of_cons fun key => ?_⟩
      -- Behind them the values of each key are those of before, but for the common first key.
      have values := same key
      rw [valuesOf_cons, valuesOf_cons, ← keys] at values
      split at values
      · rename_i own
        exact own ▸ first.2
      · exact values

/-- A key that does not repeat has one value. -/
theorem valuesOf_of_mem {attributes : Attributes} (distinct : attributes.HasDistinctKeys)
    {entry : Attribute} (member : entry ∈ attributes) :
    attributes.valuesOf entry.key = [entry.value] := by
  -- One attribute passes the filter by its key.
  rw [valuesOf, filter_key_eq_singleton distinct member, List.map_singleton]

/-- The order of attributes does not matter to the values of a key where keys are distinct. -/
theorem valuesOf_perm {attributes others : Attributes}
    (distinct : attributes.HasDistinctKeys) (perm : others.Perm attributes) (key : String) :
    others.valuesOf key = attributes.valuesOf key := by
  -- A permutation leaves no key twice.
  have othersDistinct : others.HasDistinctKeys := (perm.map _).nodup_iff.2 distinct
  -- A key has no value on both sides, or the value of its only attribute.
  by_cases none : attributes.valuesOf key = []
  · rw [none, valuesOf_eq_nil_iff]
    intro entry member
    exact valuesOf_eq_nil_iff.1 none entry (perm.mem_iff.1 member)
  · simp only [valuesOf_eq_nil_iff, not_forall, not_not] at none
    obtain ⟨entry, member, rfl⟩ := none
    rw [valuesOf_of_mem distinct member, valuesOf_of_mem othersDistinct (perm.mem_iff.2 member)]

/-- Attributes are equal to others in some order. -/
def IsReordering (attributes others : Attributes) : Prop :=
  ∃ reordered : Attributes, reordered.Perm others ∧ (attributes == reordered) = true

end Attributes

/-! ### Sorting -/

section Sorting

variable {α β : Type} [LE β] [DecidableLE β] [Std.IsLinearPreorder β]

/-- The order by `f` is transitive. -/
theorem decide_le_trans (f : α → β) (a b c : α) (first : decide (f a ≤ f b) = true)
    (next : decide (f b ≤ f c) = true) : decide (f a ≤ f c) = true :=
  -- Both comparisons are those of the values.
  decide_eq_true (Std.le_trans (of_decide_eq_true first) (of_decide_eq_true next))

/-- The order by `f` is total. -/
theorem decide_le_total (f : α → β) (a b : α) :
    (decide (f a ≤ f b) || decide (f b ≤ f a)) = true := by
  rw [Bool.or_eq_true, decide_eq_true_eq, decide_eq_true_eq]
  exact Std.le_total

/-- What is sorted by `f` ascends by `f`. -/
theorem pairwise_mergeSort (f : α → β) (items : List α) :
    (items.mergeSort fun a b => f a ≤ f b).Pairwise fun a b => f a ≤ f b :=
  (List.pairwise_mergeSort (decide_le_trans f) (decide_le_total f) items).imp of_decide_eq_true

/-- Sorting by `f` keeps the order of the items for which `f` is the same. -/
theorem filter_mergeSort [BEq β] [LawfulBEq β] (f : α → β) (value : β) (items : List α) :
    (items.mergeSort fun a b => f a ≤ f b).filter (f · == value) =
      items.filter (f · == value) := by
  -- The items with one value are in order as they stand, since ties do not matter.
  have tied : (items.filter (f · == value)).Pairwise fun a b => decide (f a ≤ f b) = true := by
    refine List.pairwise_iff_forall_sublist.2 fun {a b} both => decide_eq_true ?_
    have first := (List.mem_filter.1 (both.subset (List.mem_cons_self (a := a)))).2
    have second := (List.mem_filter.1 (both.subset (by simp : b ∈ [a, b]))).2
    rw [eq_of_beq first, eq_of_beq second]
    exact Std.le_refl value
  -- These items are left in order, and none comes or goes.
  have kept := (List.sublist_mergeSort (decide_le_trans f) (decide_le_total f) tied
    List.filter_sublist).filter (f · == value)
  rw [List.filter_filter, List.filter_congr fun item _ => Bool.and_self (f item == value)] at kept
  exact (kept.eq_of_length
    ((List.mergeSort_perm items _).filter (f · == value)).length_eq.symm).symm

/-- What is sorted by `f` is in the order of `f`, and in the order before where `f` is the same. -/
theorem pairwise_mergeSort_of_pairwise [BEq β] [LawfulBEq β] {R : α → α → Prop} {items : List α}
    (ordered : items.Pairwise R) (f : α → β) :
    (items.mergeSort fun a b => f a ≤ f b).Pairwise fun a b =>
      f a ≤ f b ∧ (f a = f b → R a b) := by
  -- Two items for which `f` is the same are among those that sorting leaves in order.
  refine List.pairwise_iff_forall_sublist.2 fun {a b} both => ⟨?_, fun same => ?_⟩
  · -- Sorting puts them in the order of `f`.
    exact List.pairwise_iff_forall_sublist.1 (pairwise_mergeSort f items) both
  · -- The two are left by the filter, which leaves them where they stood.
    have kept := both.filter (f · == f b)
    rw [filter_mergeSort, List.filter_cons_of_pos (by simpa using same),
      List.filter_cons_of_pos (by simp)] at kept
    exact List.pairwise_iff_forall_sublist.1 ordered (kept.trans List.filter_sublist)

end Sorting

namespace NumberPoint

/-- Sorting attributes by their keys does not change the values of a key. -/
theorem valuesOf_seriesKey (point : NumberPoint) (key : String) :
    point.seriesKey.valuesOf key = point.attributes.valuesOf key := by
  rw [Attributes.valuesOf, Attributes.valuesOf, seriesKey, filter_mergeSort]

/-- Sorted attributes tell whether points are of one series. -/
theorem seriesKey_beq_iff {point other : NumberPoint} :
    (point.seriesKey == other.seriesKey) = true ↔ point.SameSeries other := by
  constructor
  · -- Equal sorted lists give equal values, and sorting does not change what a key has.
    intro same key
    rw [← valuesOf_seriesKey, ← valuesOf_seriesKey]
    exact Attributes.valuesOf_beq_of_beq same key
  · -- Two sorted lists with equal values of each key are equal.
    intro same
    refine Attributes.beq_of_valuesOf_beq (pairwise_mergeSort _ _) (pairwise_mergeSort _ _)
      fun key => ?_
    rw [valuesOf_seriesKey, valuesOf_seriesKey]
    exact same key

instance (point other : NumberPoint) : Decidable (point.SameSeries other) :=
  decidable_of_iff _ seriesKey_beq_iff

/-- Which of two points is compared with the other makes no difference. -/
theorem SameSeries.symm {point other : NumberPoint} (same : point.SameSeries other) :
    other.SameSeries point :=
  fun key => BEq.symm (same key)

/-- Points that are of the series of one and the same point are of one series. -/
theorem SameSeries.trans {point other third : NumberPoint} (same : point.SameSeries other)
    (next : other.SameSeries third) : point.SameSeries third :=
  fun key => BEq.trans (same key) (next key)

end NumberPoint

/-- Points are of one series if the attributes of one are those of the other in some order, where
the other does not repeat a key. -/
theorem NumberPoint.sameSeries_iff_isReordering {point other : NumberPoint}
    (distinct : other.attributes.HasDistinctKeys) :
    point.SameSeries other ↔ point.attributes.IsReordering other.attributes := by
  constructor
  · intro same
    -- Sorting puts both lists into one order, and what it did to the first one is undone again.
    have sorted := beq_iff_forall₂.1 (seriesKey_beq_iff.2 same)
    obtain ⟨reordered, equal, perm⟩ :=
      List.perm_comp_forall₂ (List.mergeSort_perm point.attributes _).symm sorted
    exact ⟨reordered, perm.trans (List.mergeSort_perm other.attributes _),
      beq_iff_forall₂.2 equal⟩
  · rintro ⟨reordered, perm, equal⟩ key
    -- Where no key repeats, its value does not depend on the order.
    rw [← Attributes.valuesOf_perm distinct perm]
    exact Attributes.valuesOf_beq_of_beq equal key

/-! ### Points in the order of time -/

/-- A point with its position in a list. -/
abbrev PlacedPoint := NumberPoint × Nat

namespace PlacedPoint

/-- Whether points belong together: every point does with itself, even if its attributes hold
something that is not equal to itself. -/
def Joins (placed other : PlacedPoint) : Prop := placed = other ∨ placed.1.SameSeries other.1

/-- A point comes before another one if its time is earlier or, at one time, its position is. -/
def Before (placed other : PlacedPoint) : Prop :=
  placed.1.time ≤ other.1.time ∧ (placed.1.time = other.1.time → placed.2 < other.2)

variable {placed other third : PlacedPoint}

/-- Which of two points belongs to the other makes no difference. -/
theorem Joins.symm (joined : placed.Joins other) : other.Joins placed :=
  joined.imp Eq.symm .symm

/-- Points that belong to one and the same point belong together. -/
theorem Joins.trans (joined : placed.Joins other) (next : other.Joins third) :
    placed.Joins third := by
  rcases joined with rfl | same
  · exact next
  · -- Neither point is told by itself, so that the attributes decide.
    rcases next with rfl | other
    · exact Or.inr same
    · exact Or.inr (same.trans other)

/-- No point comes both before and after another one. -/
theorem Before.asymm (before : placed.Before other) : ¬ other.Before placed := by
  intro after
  -- At one time each position would be smaller than the other one.
  have same := UInt64.le_antisymm before.1 after.1
  exact Nat.lt_asymm (before.2 same) (after.2 same.symm)

/-- There is only one point at a position. -/
theorem eq_of_position_eq {points : List NumberPoint} (inside : placed ∈ points.zipIdx)
    (within : other ∈ points.zipIdx) (same : placed.2 = other.2) : placed = other := by
  -- What is found at one position is one point.
  have point : some placed.1 = some other.1 := by
    rw [← List.mem_zipIdx_iff_getElem?.1 inside, ← List.mem_zipIdx_iff_getElem?.1 within, same]
  exact Prod.ext (Option.some.inj point) same

end PlacedPoint

/-- A time series of a list of points: all that belong together, in the order of time. -/
structure IsSeries (points : List NumberPoint) (series : List PlacedPoint) : Prop where
  /-- With a point the series has all points with equal attributes, and no others. -/
  members : ∀ placed ∈ series, ∀ other, other ∈ series ↔
    other ∈ points.zipIdx ∧ other.Joins placed
  /-- The points are in the order of time, those of one time in the order of the list. -/
  ordered : series.Pairwise PlacedPoint.Before

namespace IsSeries

variable {points : List NumberPoint} {series others : List PlacedPoint} {placed : PlacedPoint}

/-- A point of a series is one of the list. -/
theorem mem_zipIdx (isSeries : IsSeries points series) (member : placed ∈ series) :
    placed ∈ points.zipIdx :=
  ((isSeries.members placed member placed).1 member).1

/-- A point of a series is at its position in the list. -/
theorem getElem? (isSeries : IsSeries points series) (member : placed ∈ series) :
    points[placed.2]? = some placed.1 :=
  List.mem_zipIdx_iff_getElem?.1 (isSeries.mem_zipIdx member)

/-- A point comes once. -/
theorem nodup (isSeries : IsSeries points series) : series.Nodup :=
  isSeries.ordered.imp fun before same => (same ▸ before).asymm (same ▸ before)

/-- A point is in one series only. -/
theorem unique (isSeries : IsSeries points series) (isOther : IsSeries points others)
    (member : placed ∈ series) (otherMember : placed ∈ others) : series = others := by
  -- Both have the points that belong to the one they share, and none twice.
  have same : series.Perm others := (List.perm_ext_iff_of_nodup isSeries.nodup isOther.nodup).2
    fun other => (isSeries.members placed member other).trans
      (isOther.members placed otherMember other).symm
  -- Two points cannot come in both orders.
  exact same.eq_of_pairwise (fun a b _ _ before after => (before.asymm after).elim)
    isSeries.ordered isOther.ordered

end IsSeries

/-! ### Groups -/

namespace Series

/-- The series of some points. -/
def grouped (points : List PlacedPoint) : List Series :=
  points.foldl (fun found placed => add placed.1.seriesKey placed.2 found) []

/-- Of the points that come after a series was found, those with its key join it, and the others are
grouped as if it were not there. -/
theorem foldl_add_cons (series : Series) (found : List Series) (points : List PlacedPoint) :
    points.foldl (fun found placed => add placed.1.seriesKey placed.2 found) (series :: found) =
      { series with
        positions := series.positions ++
          (points.filter fun placed => series.key == placed.1.seriesKey).map (·.2) } ::
        (points.filter fun placed => !series.key == placed.1.seriesKey).foldl
          (fun found placed => add placed.1.seriesKey placed.2 found) found := by
  -- The series in front takes the point or passes it on.
  induction points generalizing series found with
  | nil => simp
  | cons placed rest ih =>
    rw [List.foldl_cons, add]
    -- The point has the key and joins the series in front.
    split
    · rename_i same
      rw [ih]
      simp [same]
    · -- The point has another key and goes to the series behind.
      rename_i different
      rw [ih]
      simp [different]

/-- The first point is grouped with those that have its key, and the others are grouped apart. -/
theorem grouped_cons (first : PlacedPoint) (rest : List PlacedPoint) :
    grouped (first :: rest) =
      ⟨first.1.seriesKey, first.2 ::
        (rest.filter fun placed => first.1.seriesKey == placed.1.seriesKey).map (·.2)⟩ ::
        grouped (rest.filter fun placed => !first.1.seriesKey == placed.1.seriesKey) :=
  foldl_add_cons ⟨first.1.seriesKey, [first.2]⟩ [] rest

/-- An induction that takes a point away together with all that are grouped with it. -/
theorem grouped_induction {motive : List PlacedPoint → Prop} (nil : motive [])
    (cons : ∀ first rest,
      motive (rest.filter fun placed => !first.1.seriesKey == placed.1.seriesKey) →
        motive (first :: rest)) (points : List PlacedPoint) : motive points := by
  induction size : points.length using Nat.strongRecOn generalizing points with
  | _ size ih =>
    cases points with
    | nil => exact nil
    | cons first rest =>
      -- The points left have another key than the first one, which is not among them.
      have fewer := List.length_filter_le
        (fun placed => !first.1.seriesKey == placed.1.seriesKey) rest
      rw [List.length_cons] at size
      exact cons first rest (ih _ (by omega) _ rfl)

/-- Every point is in exactly one place of exactly one group. -/
theorem flatMap_positions_grouped (points : List PlacedPoint) :
    ((grouped points).flatMap (·.positions)).Perm (points.map (·.2)) := by
  induction points using grouped_induction with
  | nil => exact .refl _
  | cons first rest ih =>
    -- The points of the first group and the others are all there are.
    rw [grouped_cons, List.flatMap_cons, List.map_cons, List.cons_append]
    refine List.Perm.cons _ ((ih.append_left _).trans ?_)
    rw [← List.map_append]
    exact (List.filter_append_perm _ rest).map _

/-- A group has the positions of all points that belong to one of them. -/
theorem exists_of_mem_grouped {points : List PlacedPoint} (distinct : points.Nodup)
    {series : Series} (member : series ∈ grouped points) :
    ∃ first ∈ points, ∃ fellows : List PlacedPoint, fellows.Sublist points ∧
      series.positions = fellows.map (·.2) ∧
      ∀ placed, placed ∈ fellows ↔ placed ∈ points ∧ placed.Joins first := by
  -- A group is that of the first point, or one of the points that are left without its group.
  induction points using grouped_induction with
  | nil => simp [grouped] at member
  | cons start rest ih =>
    obtain ⟨once, distinct⟩ := List.nodup_cons.1 distinct
    rw [grouped_cons] at member
    rcases List.mem_cons.1 member with rfl | later
    · refine ⟨start, List.mem_cons_self, start :: rest.filter fun placed =>
        start.1.seriesKey == placed.1.seriesKey, List.filter_sublist.cons_cons _, rfl, ?_⟩
      intro placed
      rw [List.mem_cons, List.mem_filter, NumberPoint.seriesKey_beq_iff, List.mem_cons]
      -- A point is of the first group if it is the first one or has its key.
      constructor
      · rintro (rfl | ⟨inside, same⟩)
        · exact ⟨Or.inl rfl, Or.inl rfl⟩
        · exact ⟨Or.inr inside, Or.inr same.symm⟩
      · rintro ⟨rfl | inside, joined⟩
        · exact Or.inl rfl
        · exact joined.imp_right fun same => ⟨inside, same.symm⟩
    · obtain ⟨first, held, fellows, within, positions, joins⟩ :=
        ih (distinct.sublist List.filter_sublist) later
      -- Otherwise the first point of the list does not belong to the group.
      have apart : ¬ start.Joins first := by
        rw [List.mem_filter, Bool.not_eq_true', ← Bool.not_eq_true,
          NumberPoint.seriesKey_beq_iff] at held
        rintro (rfl | same)
        · exact once held.1
        · exact held.2 same
      refine ⟨first, List.mem_cons_of_mem _ (List.mem_filter.1 held).1, fellows,
        (within.trans List.filter_sublist).cons _, positions, ?_⟩
      intro placed
      rw [joins, List.mem_filter, Bool.not_eq_true', ← Bool.not_eq_true,
        NumberPoint.seriesKey_beq_iff, List.mem_cons]
      constructor
      · rintro ⟨⟨inside, -⟩, joined⟩
        exact ⟨Or.inr inside, joined⟩
      · -- Neither the point in front nor one that was grouped with it belongs to this group.
        rintro ⟨rfl | inside, joined⟩
        · exact absurd joined apart
        · exact ⟨⟨inside, fun same => apart (PlacedPoint.Joins.trans (Or.inr same) joined)⟩, joined⟩

/-- Positions ascend. -/
theorem pairwise_zipIdx (points : List NumberPoint) :
    points.zipIdx.Pairwise fun placed other => placed.2 < other.2 := by
  -- Positions are numbered from zero on.
  have ascending : (points.zipIdx.map (·.2)).Pairwise (· < ·) := by
    rw [List.zipIdx_map_snd]
    exact List.pairwise_lt_range'
  exact List.pairwise_map.1 ascending

/-- Positions tell points apart. -/
theorem nodup_zipIdx (points : List NumberPoint) : points.zipIdx.Nodup :=
  (pairwise_zipIdx points).imp fun before same => Nat.ne_of_lt before (congrArg Prod.snd same)

/-- The groups of a list of points have no positions in common. -/
theorem pairwise_ofPoints (points : List NumberPoint) :
    (ofPoints points).Pairwise fun series other =>
      ∀ position ∈ series.positions, position ∉ other.positions := by
  -- No position comes twice, so that no two groups share one.
  have distinct := (flatMap_positions_grouped points.zipIdx).nodup_iff.2
    ((List.pairwise_map.2 (pairwise_zipIdx points)).imp Nat.ne_of_lt)
  exact (List.nodup_flatMap.1 distinct).2

end Series

/-- Every point is in a series, which is what a group becomes in the order of time. -/
theorem exists_isSeries {points : List NumberPoint} {placed : PlacedPoint}
    (member : placed ∈ points.zipIdx) :
    ∃ series, IsSeries points series ∧ placed ∈ series ∧
      ∃ group ∈ Series.ofPoints points, group.inTimeOrder points = series.map (·.2) := by
  have ascending := Series.pairwise_zipIdx points
  -- The position of the point is listed in some group.
  obtain ⟨group, found, inside⟩ := List.mem_flatMap.1
    ((Series.flatMap_positions_grouped points.zipIdx).mem_iff.2 (List.mem_map_of_mem member))
  obtain ⟨first, -, fellows, within, positions, joins⟩ := Series.exists_of_mem_grouped
    (Series.nodup_zipIdx points) found
  -- The group has the point itself, because there is only one point at its position.
  have own : placed ∈ fellows := by
    obtain ⟨other, held, same⟩ := List.mem_map.1 (positions ▸ inside)
    exact PlacedPoint.eq_of_position_eq (within.subset held) member same ▸ held
  -- Sorting the points by time sorts their positions.
  refine ⟨fellows.mergeSort fun a b => a.1.time ≤ b.1.time, ⟨?_, ?_⟩, List.mem_mergeSort.2 own,
    group, found, ?_⟩
  · -- The points of the group are those that belong together.
    intro other held another
    rw [List.mem_mergeSort, joins] at held ⊢
    exact and_congr_right fun _ =>
      ⟨fun joined => joined.trans held.2.symm, fun joined => joined.trans held.2⟩
  · -- Points at one time keep the order of their positions.
    exact pairwise_mergeSort_of_pairwise (ascending.sublist within) (·.1.time)
  · -- The positions are sorted by the times of the points that they have.
    rw [Series.inTimeOrder, positions]
    refine (List.map_mergeSort fun a held b inside => ?_).symm
    beta_reduce
    rw [List.mem_zipIdx_iff_getElem?.1 (within.subset held),
      List.mem_zipIdx_iff_getElem?.1 (within.subset inside)]
    rfl

namespace IsSeries

variable {points : List NumberPoint} {series : List PlacedPoint}

/-- A position comes once. -/
theorem nodup_positions (isSeries : IsSeries points series) : (series.map (·.2)).Nodup :=
  -- Two points at one position would be the same.
  isSeries.nodup.map_on fun _ held _ inside =>
    PlacedPoint.eq_of_position_eq (isSeries.mem_zipIdx held) (isSeries.mem_zipIdx inside)

/-- What a series becomes is what a sweep over its positions writes, in a list in which its points
are still as they were. -/
theorem exists_sweep (isSeries : IsSeries points series) :
    ∃ current : List NumberPoint, ∀ placed ∈ series, current[placed.2]? = some placed.1 ∧
      (deltas points)[placed.2]? = (Series.sweep current none (series.map (·.2)))[placed.2]? := by
  cases series with
  | nil => exact ⟨[], by simp⟩
  | cons first rest =>
    have held := isSeries.mem_zipIdx List.mem_cons_self
    -- The series of its first point is the only one, hence a group.
    obtain ⟨series, isOther, member, group, found, order⟩ := exists_isSeries held
    obtain rfl := isSeries.unique isOther List.mem_cons_self member
    obtain ⟨current, sweeps⟩ := Series.exists_getElem?_foldl_sweep
      (Series.pairwise_ofPoints points) rfl (fun _ _ _ _ => rfl) found
    refine ⟨current, fun placed within => ?_⟩
    -- The position of the point is one of those that the sweep visits.
    have inside : placed.2 ∈ group.inTimeOrder points := order ▸ List.mem_map_of_mem within
    rw [← order, ← isSeries.getElem? within]
    exact sweeps placed.2 (Series.mem_inTimeOrder.1 inside)

/-- The first point of a series keeps its reading and its start. -/
theorem getElem?_deltas_first {first : PlacedPoint} {back : List PlacedPoint}
    (isSeries : IsSeries points (first :: back)) : (deltas points)[first.2]? = some first.1 := by
  -- The sweep starts here and remembers no point.
  obtain ⟨current, sweeps⟩ := isSeries.exists_sweep
  obtain ⟨found, written⟩ := sweeps first List.mem_cons_self
  have distinct := isSeries.nodup_positions
  rw [List.map_cons] at distinct written
  rw [written]
  exact Series.getElem?_sweep_cons (List.nodup_cons.1 distinct).1 found none

/-- A later point of a series becomes the change since the point before it. -/
theorem getElem?_deltas {front back : List PlacedPoint} {before placed : PlacedPoint}
    (isSeries : IsSeries points series) (parts : series = front ++ before :: placed :: back) :
    (deltas points)[placed.2]? = some (placed.1.since before.1) := by
  -- The sweep comes here from the point before, which it remembers as it was.
  subst parts
  obtain ⟨current, sweeps⟩ := isSeries.exists_sweep
  obtain ⟨found, written⟩ := sweeps placed (by simp)
  have distinct := isSeries.nodup_positions
  rw [List.map_append, List.map_cons, List.map_cons] at distinct written
  rw [written]
  exact Series.getElem?_sweep distinct (sweeps before (by simp)).1 found none

end IsSeries

end SchemaUplift
