import Mathlib.Data.List.Basic
import SchemaUplift.Proofs.Rule.DataPoints
import SchemaUplift.Rule.Delta

/-! What a sweep over the positions of a series writes. Each point is written once, from what it and
the point before it were at the start, however much of the list has been rewritten by then. -/

namespace SchemaUplift

/-- A point stays as it is, or else it gets another reading and starts with its predecessor. -/
theorem NumberPoint.since_cases (point predecessor : NumberPoint) :
    point.since predecessor = point ∨ ∃ change,
      point.since predecessor =
        { point with reading := some change, start := predecessor.time } := by
  -- A point changes if both readings are numbers of one type that do not decrease.
  unfold since
  split
  · split
    · exact Or.inr ⟨_, rfl⟩
    · exact Or.inl rfl
  · exact Or.inl rfl

/-- What depends on neither reading nor start of a point stays when the point changes. -/
theorem NumberPoint.apply_since {β : Type} {f : NumberPoint → β}
    (blind : ∀ (point : NumberPoint) reading start, f { point with reading, start } = f point)
    (point predecessor : NumberPoint) : f (point.since predecessor) = f point := by
  -- A point that stays has nothing to show, and another one differs in what is not seen.
  rcases point.since_cases predecessor with same | ⟨change, changed⟩
  · rw [same]
  · rw [changed, blind]

namespace Series

/-- A sweep changes nothing but readings and starts. -/
theorem map_sweep {β : Type} {f : NumberPoint → β}
    (blind : ∀ (point : NumberPoint) reading start, f { point with reading, start } = f point)
    (points : List NumberPoint) (previous : Option NumberPoint) (positions : List Nat) :
    (sweep points previous positions).map f = points.map f := by
  -- The induction writes the first point and goes on with the list that this leaves.
  induction positions generalizing points previous with
  | nil => rfl
  | cons position rest ih =>
    rw [sweep]
    split
    · -- A position past the end is passed over.
      exact ih points previous
    · -- A point is written in its place, and what is seen of it is as before.
      rename_i point found
      have same : f (previous.elim point point.since) = f point := by
        cases previous with
        | none => rfl
        | some predecessor => exact NumberPoint.apply_since blind point predecessor
      obtain ⟨within, rfl⟩ := List.getElem?_eq_some_iff.1 found
      rw [ih, List.map_set, same, ← List.map_set, List.set_getElem_self]

/-- Positions that a sweep does not come to keep their points. -/
theorem getElem?_sweep_of_not_mem {positions : List Nat} {position : Nat}
    (elsewhere : position ∉ positions) (points : List NumberPoint)
    (previous : Option NumberPoint) :
    (sweep points previous positions)[position]? = points[position]? := by
  -- The induction goes along the positions, and none of them is this one.
  induction positions generalizing points previous with
  | nil => rfl
  | cons first rest ih =>
    rw [List.mem_cons, not_or] at elsewhere
    rw [sweep]
    split
    · exact ih elsewhere.2 points previous
    · rw [ih elsewhere.2, List.getElem?_set_ne (Ne.symm elsewhere.1)]

variable {points : List NumberPoint} {position : Nat} {point : NumberPoint}

/-- A sweep writes at its first position the change since the point that it remembers, if any. -/
theorem getElem?_sweep_cons {back : List Nat} (once : position ∉ back)
    (found : points[position]? = some point) (previous : Option NumberPoint) :
    (sweep points previous (position :: back))[position]? =
      some (previous.elim point point.since) := by
  -- The position is within the list, so what is written there is found there.
  have within := (List.getElem?_eq_some_iff.1 found).1
  rw [sweep, found]
  exact (getElem?_sweep_of_not_mem once _ _).trans (List.getElem?_set_self within)

/-- A sweep writes at every later position the change since the point at the position before, both
points as they were at the start. -/
theorem getElem?_sweep {front back : List Nat} {before : Nat} {predecessor : NumberPoint}
    (distinct : (front ++ before :: position :: back).Nodup)
    (foundBefore : points[before]? = some predecessor) (found : points[position]? = some point)
    (previous : Option NumberPoint) :
    (sweep points previous (front ++ before :: position :: back))[position]? =
      some (point.since predecessor) := by
  -- The induction goes over the positions in front. What is written there does not reach the two
  -- points, and once the first of them is written it is remembered as it was.
  induction front generalizing points previous with
  -- The first of the two points is at the front: it is written, and the other one comes next.
  | nil =>
    rw [List.nil_append, List.nodup_cons, List.mem_cons, not_or, List.nodup_cons] at distinct
    obtain ⟨⟨apart, -⟩, once, -⟩ := distinct
    rw [List.nil_append, sweep, foundBefore]
    exact getElem?_sweep_cons once ((List.getElem?_set_ne apart).trans found) (some predecessor)
  -- Something else is at the front: it is passed over or written elsewhere.
  | cons first front ih =>
    rw [List.cons_append, List.nodup_cons] at distinct
    obtain ⟨once, distinct⟩ := distinct
    rw [List.cons_append, sweep]
    split
    · exact ih distinct foundBefore found previous
    · have apart {other : Nat} (member : other ∈ front ++ before :: position :: back) :
          first ≠ other := fun same => once (same ▸ member)
      exact ih distinct ((List.getElem?_set_ne (apart (by simp))).trans foundBefore)
        ((List.getElem?_set_ne (apart (by simp))).trans found) _

/-! ### Series after series -/

/-- A series in the order of time has the same positions. -/
theorem mem_inTimeOrder {series : Series} {points : List NumberPoint} {position : Nat} :
    position ∈ series.inTimeOrder points ↔ position ∈ series.positions :=
  List.mem_mergeSort

/-- The order of time depends on times alone. -/
theorem inTimeOrder_congr {points others : List NumberPoint}
    (times : others.map (·.time) = points.map (·.time)) (series : Series) :
    series.inTimeOrder others = series.inTimeOrder points := by
  -- The sort compares times, and those are the same.
  simp only [inTimeOrder, ← List.getElem?_map, times]

/-- Sweeping series leaves positions alone that none of them has. -/
theorem getElem?_foldl_sweep_of_not_mem {found : List Series} {position : Nat}
    (elsewhere : ∀ series ∈ found, position ∉ series.positions) (points : List NumberPoint) :
    (found.foldl (fun points series => sweep points none (series.inTimeOrder points))
      points)[position]? = points[position]? := by
  -- The induction goes along the series, and none of them has the position.
  induction found generalizing points with
  | nil => rfl
  | cons first rest ih =>
    have apart : position ∉ first.inTimeOrder points := fun member =>
      elsewhere first List.mem_cons_self (mem_inTimeOrder.1 member)
    rw [List.foldl_cons, ih fun series member => elsewhere series (List.mem_cons_of_mem _ member),
      getElem?_sweep_of_not_mem apart]

/-- Of series without common positions each is swept in a list in which its own points are still as
they were at the start, and what that writes there stays. -/
theorem exists_getElem?_foldl_sweep {found : List Series} {points now : List NumberPoint}
    (disjoint : found.Pairwise fun series other => ∀ position ∈ series.positions,
      position ∉ other.positions)
    (times : now.map (·.time) = points.map (·.time))
    (unwritten : ∀ series ∈ found, ∀ position ∈ series.positions,
      now[position]? = points[position]?)
    {series : Series} (member : series ∈ found) :
    ∃ current : List NumberPoint, ∀ position ∈ series.positions,
      current[position]? = points[position]? ∧
      (found.foldl (fun points series => sweep points none (series.inTimeOrder points))
        now)[position]? = (sweep current none (series.inTimeOrder points))[position]? := by
  -- The induction sweeps the first series, which reaches no point of the others.
  induction found generalizing now with
  | nil => simp at member
  | cons first rest ih =>
    obtain ⟨apart, disjoint⟩ := List.pairwise_cons.1 disjoint
    rw [List.foldl_cons]
    -- The series is swept first, and no later one writes at its positions.
    rcases List.mem_cons.1 member with rfl | later
    · refine ⟨now, fun position inside => ⟨unwritten series member position inside, ?_⟩⟩
      rw [getElem?_foldl_sweep_of_not_mem fun other within => apart other within position inside,
        inTimeOrder_congr times]
    · -- It is swept later, in a list with the same times and its own points unwritten.
      refine ih disjoint ?_ (fun other within position inside => ?_) later
      · rw [map_sweep fun _ _ _ => rfl, times]
      · rw [getElem?_sweep_of_not_mem]
        · exact unwritten other (List.mem_cons_of_mem _ within) position inside
        · exact fun swept => apart other within position (mem_inTimeOrder.1 swept) inside

end Series

/-- Points keep their places when their readings become changes, and all but readings and starts. -/
theorem map_deltas {β : Type} {f : NumberPoint → β}
    (blind : ∀ (point : NumberPoint) reading start, f { point with reading, start } = f point)
    (points : List NumberPoint) : (deltas points).map f = points.map f := by
  -- The series are those of the points at the start, however the list changes meanwhile.
  unfold deltas
  generalize Series.ofPoints points = found
  -- One series after the other is swept.
  induction found generalizing points with
  | nil => rfl
  | cons series rest ih => rw [List.foldl_cons, ih, Series.map_sweep blind]

/-- There are as many points after as before. -/
theorem length_deltas (points : List NumberPoint) : (deltas points).length = points.length := by
  -- The times are among what stays.
  have times : (deltas points).map (·.time) = points.map (·.time) :=
    map_deltas (fun _ _ _ => rfl) points
  simpa using congrArg List.length times

/-! ### Metrics -/

namespace Metric

/-- A cumulative sum becomes a delta sum, and is recorded as it was. -/
theorem toDelta_of_sum {metric : Metric} {monotonic : Bool} {points : List NumberPoint}
    (sum : metric.data = some (.numbers (.sum .cumulative monotonic) points)) (index : Nat) :
    metric.toDelta index =
      .changed { metric with data := some (.numbers (.sum .delta monotonic) (deltas points)) }
        (.replacedMetric (.here (.metric index)) metric) := by
  -- The one condition is that the temporality is cumulative.
  rw [toDelta, sum]
  exact if_pos rfl

/-- A metric is a cumulative sum, or it is left alone. -/
theorem toDelta_cases (index : Nat) (metric : Metric) :
    (∃ monotonic points, metric.data = some (.numbers (.sum .cumulative monotonic) points)) ∨
    (∀ monotonic points, metric.data ≠ some (.numbers (.sum .cumulative monotonic) points)) ∧
      metric.toDelta index = .unchanged metric := by
  -- The case split asks for the data, and leaves out gauges, delta sums and distributions.
  by_cases sum : ∃ monotonic points,
      metric.data = some (.numbers (.sum .cumulative monotonic) points)
  · exact Or.inl sum
  · -- Anything else falls through the cases of the definition, or fails its condition.
    refine Or.inr ⟨fun monotonic points same => sum ⟨monotonic, points, same⟩, ?_⟩
    unfold toDelta
    split
    · rename_i temporality monotonic points held
      refine if_neg fun (cumulative : temporality = .cumulative) => sum ⟨monotonic, points, ?_⟩
      rw [held, cumulative]
    · rfl

/-- The data points of a metric that becomes a delta sum keep their places, and all but readings and
starts. -/
theorem map_dataPoints_toDelta {β : Type} {f : DataPoint → β}
    (blind : ∀ (point : NumberPoint) reading start,
      f (Point.mapReading .number { point with reading, start }) = f (point.mapReading .number))
    (index : Nat) (metric : Metric) :
    (metric.toDelta index).value.dataPoints.map f = metric.dataPoints.map f := by
  rcases metric.toDelta_cases index with ⟨monotonic, points, sum⟩ | ⟨-, idle⟩
  · -- The points of the sum are numbers, which the sweeps rewrite in their places.
    rw [toDelta_of_sum sum, dataPoints_of_data sum, Attempt.changed, dataPoints_of_data rfl]
    show ((deltas points).map _).map f = (points.map _).map f
    rw [List.map_map, List.map_map]
    exact map_deltas blind points
  · rw [idle]
    rfl

end Metric

end SchemaUplift
