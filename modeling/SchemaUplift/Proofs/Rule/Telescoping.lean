import SchemaUplift.Proofs.Rule.DataPoints
import SchemaUplift.Proofs.Rule.Series

/-! The changes of a delta sum add up to the counts of the cumulative sum that it was: from each
reset of a series to the next, the changes so far are the count at that point. -/

namespace SchemaUplift

/-! ### Counts -/

namespace NumberPoint

/-- The integer that a point reads, and zero if it reads none. -/
def count (point : NumberPoint) : Int :=
  match point.reading with
  | some (.int value) => value.toInt
  | _ => 0

/-- The point reads an integer. -/
def IsCount (point : NumberPoint) : Prop := ∃ value, point.reading = some (.int value)

/-- The next count is at least as large, by a difference that is a 64-bit integer. -/
structure RisesTo (point next : NumberPoint) : Prop where
  /-- The first of the two is a count. -/
  counts : point.IsCount
  /-- So is the next one. -/
  nextCounts : next.IsCount
  /-- The next count is not smaller. -/
  le : point.count ≤ next.count
  /-- The difference fits in 64 bits; it is not negative. -/
  fits : next.count - point.count ≤ Int64.maxValue.toInt

variable {point next : NumberPoint}

/-- A point that reads an integer counts it. -/
theorem count_of_reading {value : Int64} (reads : point.reading = some (.int value)) :
    point.count = value.toInt := by
  rw [count, reads]

/-- A point whose count has risen reads the difference, and starts with its predecessor. -/
theorem RisesTo.exists_since (rises : point.RisesTo next) :
    ∃ change : Int64, change.toInt = next.count - point.count ∧
      next.since point = { next with reading := some (.int change), start := point.time } := by
  -- Both counts are read as integers.
  obtain ⟨⟨value, reads⟩, ⟨nextValue, nextReads⟩, le, fits⟩ := rises
  rw [count_of_reading reads, count_of_reading nextReads] at le fits ⊢
  refine ⟨nextValue - value, ?_, ?_⟩
  · -- The difference does not wrap around.
    rw [Int64.toInt_maxValue] at fits
    rw [Int64.toInt_sub]
    exact Int.bmod_eq_of_le (by omega) (by omega)
  · -- The count has not fallen, so that the point reads the difference.
    rw [since, nextReads, reads]
    simp only [Number.since?, Int64.le_iff_toInt_le, if_pos le]

/-- A point whose count has fallen stays as it is. -/
theorem since_of_count_lt (counts : point.IsCount) (nextCounts : next.IsCount)
    (falls : next.count < point.count) : next.since point = next := by
  obtain ⟨value, reads⟩ := counts
  obtain ⟨nextValue, nextReads⟩ := nextCounts
  rw [count_of_reading reads, count_of_reading nextReads] at falls
  -- The count has fallen, so that there is no change to read.
  rw [since, nextReads, reads]
  simp only [Number.since?, Int64.le_iff_toInt_le, if_neg (Int.not_le.2 falls)]

end NumberPoint

/-! ### Changes along a run -/

/-- The points with each reading but the first replaced by the change since the one before. -/
def changes : List NumberPoint → List NumberPoint
  | [] => []
  | first :: rest => first :: List.zipWith NumberPoint.since rest (first :: rest)

/-- Points whose readings are changes tell the counts that other points had. -/
structure Telescopes (counts changes : List NumberPoint) : Prop where
  /-- There are as many points. -/
  length : changes.length = counts.length
  /-- The first point is the same. -/
  first : changes.head? = counts.head?
  /-- Every later point starts at the time of the point before. -/
  starts : ∀ n point change, counts[n]? = some point → changes[n + 1]? = some change →
    change.start = point.time
  /-- All changes are integers. -/
  integers : ∀ change ∈ changes, change.IsCount
  /-- The changes up to a point add up to its count. -/
  sums : ∀ n point, counts[n]? = some point →
    ((changes.take (n + 1)).map NumberPoint.count).sum = point.count

namespace Telescopes

variable {first next : NumberPoint} {counts rest : List NumberPoint}

/-- A single point is its own change. -/
theorem singleton (counted : first.IsCount) : Telescopes [first] [first] where
  length := rfl
  first := rfl
  starts := by simp
  integers := by simpa using counted
  -- The only change is the first point itself.
  sums n point held := by
    rw [List.getElem?_singleton] at held
    split at held <;> simp_all

/-- A point in front from which the count rises takes its own count off the change that follows. -/
theorem cons (rises : first.RisesTo next)
    (telescopes : Telescopes (next :: counts) (next :: rest)) :
    Telescopes (first :: next :: counts) (first :: next.since first :: rest) := by
  -- The second point reads the difference of the first two counts from now on.
  obtain ⟨change, difference, since⟩ := rises.exists_since
  have counted : (next.since first).count = next.count - first.count := by
    rw [since, NumberPoint.count_of_reading rfl, difference]
  -- Everything from the third point on is as it was, with all indices moved by one.
  refine ⟨?_, rfl, ?_, ?_, ?_⟩
  · simpa using telescopes.length
  · intro n point result held found
    cases n with
    -- The second point starts at the time of the first one.
    | zero =>
      simp only [List.getElem?_cons_zero, List.getElem?_cons_succ, Option.some.injEq] at held found
      rw [← found, ← held, since]
    | succ n => exact telescopes.starts n point result held found
  · intro result member
    -- The first change is the first count, the second one the difference, and the others are as
    -- before.
    rcases List.mem_cons.1 member with rfl | later
    · exact rises.counts
    · rcases List.mem_cons.1 later with rfl | later
      · exact ⟨change, by rw [since]⟩
      · exact telescopes.integers result (List.mem_cons_of_mem _ later)
  · intro n point held
    cases n with
    -- The first point is its own sum.
    | zero =>
      simp only [List.getElem?_cons_zero, Option.some.injEq] at held
      simp [held]
    | succ n =>
      -- The first two changes now add up to the count that the second one had before.
      have sums := telescopes.sums n point held
      simp only [List.take_succ_cons, List.map_cons, List.sum_cons] at sums ⊢
      omega

end Telescopes

/-- Where counts only rise, the changes add up to them. -/
theorem telescopes_changes {first : NumberPoint} {rest : List NumberPoint}
    (counted : first.IsCount) (rises : (first :: rest).IsChain NumberPoint.RisesTo) :
    Telescopes (first :: rest) (changes (first :: rest)) := by
  -- The run without its first point telescopes on its own.
  induction rest generalizing first with
  | nil => exact .singleton counted
  | cons next rest ih =>
    -- The first rise is put in front of the others.
    obtain ⟨rise, rises⟩ := List.isChain_cons_cons.1 rises
    exact (ih rise.nextCounts rises).cons rise

/-! ### Runs of a series -/

/-- A series cut where counts fall. -/
def runs (series : List PlacedPoint) : List (List PlacedPoint) :=
  series.splitBy fun placed next => placed.1.count ≤ next.1.count

/-- A run starts with its series, or after a larger count. -/
theorem exists_of_mem_runs {series run : List PlacedPoint} (cut : run ∈ runs series) :
    ∃ front first rest back, run = first :: rest ∧ series = front ++ first :: rest ++ back ∧
      (front = [] ∨
        ∃ earlier last, front = earlier ++ [last] ∧ first.1.count < last.1.count) := by
  -- No run is empty, and the run stands somewhere among the runs.
  obtain ⟨first, rest, rfl⟩ := List.exists_cons_of_ne_nil (List.ne_nil_of_mem_splitBy cut)
  obtain ⟨before, after, parts⟩ := List.append_of_mem cut
  have whole := List.flatten_splitBy (fun placed next => placed.1.count ≤ next.1.count) series
  have falls := List.isChain_getLast_head_splitBy
    (fun placed next => placed.1.count ≤ next.1.count) series
  rw [← runs, parts] at whole falls
  refine ⟨before.flatten, first, rest, after.flatten, rfl, by simp [← whole], ?_⟩
  rcases List.eq_nil_or_concat before with rfl | ⟨others, previous, rfl⟩
  · -- The run is the first one.
    exact Or.inl rfl
  · -- The run before ends with a larger count.
    obtain ⟨ends, starts, larger⟩ : ∃ ends starts, decide ((previous.getLast ends).1.count ≤
        ((first :: rest).head starts).1.count) = false :=
      (List.isChain_append.1 falls).2.2 previous (by simp) (first :: rest) (by simp)
    refine Or.inr ⟨others.flatten ++ previous.dropLast, previous.getLast ends, ?_, ?_⟩
    · simp [List.dropLast_append_getLast]
    · exact Int.not_le.1 (of_decide_eq_false larger)

namespace IsSeries

variable {points : List NumberPoint}

/-- Points that follow each other in a series become the changes since their predecessors. -/
theorem map_getElem?_deltas_following {front rest back : List PlacedPoint} {before : PlacedPoint}
    (isSeries : IsSeries points (front ++ before :: rest ++ back)) :
    rest.map (fun placed => (deltas points)[placed.2]?) =
      (List.zipWith NumberPoint.since (rest.map (·.1)) ((before :: rest).map (·.1))).map some := by
  -- A point that is done joins those in front.
  induction rest generalizing front before with
  | nil => rfl
  | cons next rest ih =>
    -- The point goes to the front, and the next one has it for a predecessor.
    have later : IsSeries points ((front ++ [before]) ++ next :: rest ++ back) := by
      simpa using isSeries
    have now : (deltas points)[next.2]? = some (next.1.since before.1) :=
      isSeries.getElem?_deltas (by simp : _ = front ++ before :: next :: (rest ++ back))
    rw [List.map_cons, now, ih later]
    rfl

/-- The points of a run become the changes along it. -/
theorem map_getElem?_deltas_run {series run : List PlacedPoint} (isSeries : IsSeries points series)
    (counted : ∀ placed ∈ series, placed.1.IsCount) (cut : run ∈ runs series) :
    run.map (fun placed => (deltas points)[placed.2]?) = (changes (run.map (·.1))).map some := by
  obtain ⟨front, first, rest, back, rfl, rfl, start⟩ := exists_of_mem_runs cut
  -- The first point has no predecessor in the series, or one from which there is no change.
  have now : (deltas points)[first.2]? = some first.1 := by
    -- It comes first in its series, or it has fallen from its predecessor and stays as it is.
    rcases start with rfl | ⟨earlier, last, rfl, falls⟩
    · exact getElem?_deltas_first isSeries
    · have same := NumberPoint.since_of_count_lt (counted last (by simp)) (counted first (by simp))
        falls
      exact same ▸ isSeries.getElem?_deltas
        (by simp : _ = earlier ++ last :: first :: (rest ++ back))
  -- All other points of the run have a predecessor in it.
  rw [List.map_cons, now, map_getElem?_deltas_following isSeries]
  rfl

/-- The changes that the points of a run become add up to its counts. -/
theorem telescopes_deltas {series run : List PlacedPoint} (isSeries : IsSeries points series)
    (counted : ∀ placed ∈ series, placed.1.IsCount) (cut : run ∈ runs series)
    (fits : run.IsChain fun placed next => next.1.count - placed.1.count ≤ Int64.maxValue.toInt) :
    ∃ results, run.map (fun placed => (deltas points)[placed.2]?) = results.map some ∧
      Telescopes (run.map (·.1)) results := by
  refine ⟨_, isSeries.map_getElem?_deltas_run counted cut, ?_⟩
  -- The cuts are made where a count falls, and nowhere else.
  have climbs := List.isChain_of_mem_splitBy cut
  have inside : ∀ placed ∈ run, placed.1.IsCount := fun placed member =>
    counted placed (List.flatten_splitBy _ series ▸ List.mem_flatten.2 ⟨run, cut, member⟩)
  -- Within a run no count falls, and all differences fit.
  have rises : (run.map (·.1)).IsChain NumberPoint.RisesTo := by
    rw [List.isChain_map]
    refine List.isChain_iff_forall_rel_of_append_cons_cons.2 fun placed next front back parts => ?_
    exact ⟨inside placed (by simp [parts]), inside next (by simp [parts]),
      of_decide_eq_true (List.isChain_iff_forall_rel_of_append_cons_cons.1 climbs parts),
      List.isChain_iff_forall_rel_of_append_cons_cons.1 fits parts⟩
  -- A run is not empty, so that its changes start with its first point.
  obtain ⟨first, rest, rfl⟩ := List.exists_cons_of_ne_nil (List.ne_nil_of_mem_splitBy cut)
  exact telescopes_changes (inside first List.mem_cons_self) rises

end IsSeries

/-! ### Metrics -/

/-- A reading of a counter without attributes. -/
def counterAt (time : UInt64) (value : Int64) : NumberPoint := ⟨[], 1, time, 0, some (.int value)⟩

namespace Metric

/-- A metric keeps its points but for their readings and starts. A cumulative sum becomes a delta
sum: each of its points is in one series, and from each fall of a series of counts to the next the
changes add up to the counts. Any other metric is left alone, and so is every result. -/
theorem telescopes_toDelta (metric : Metric) (index : Nat) :
    ((metric.toDelta index).value.dataPoints.map fun point =>
        (point.attributes, point.time, point.flags)) =
      (metric.dataPoints.map fun point => (point.attributes, point.time, point.flags)) ∧
    (∀ monotonic points, metric.data = some (.numbers (.sum .cumulative monotonic) points) →
      ∃ converted, (metric.toDelta index).value =
          { metric with data := some (.numbers (.sum .delta monotonic) converted) } ∧
        (∀ placed ∈ points.zipIdx, ∃! series, IsSeries points series ∧ placed ∈ series) ∧
        ∀ series, IsSeries points series → (∀ placed ∈ series, placed.1.IsCount) →
          ∀ run ∈ runs series,
            (run.IsChain fun placed next => next.1.count - placed.1.count ≤ Int64.maxValue.toInt) →
              ∃ results, run.map (fun placed => converted[placed.2]?) = results.map some ∧
                Telescopes (run.map (·.1)) results) ∧
    ((∀ monotonic points, metric.data ≠ some (.numbers (.sum .cumulative monotonic) points)) →
      metric.toDelta index = .unchanged metric) ∧
    ∀ again, (metric.toDelta index).value.toDelta again =
      .unchanged (metric.toDelta index).value := by
  refine ⟨?_, ?_, ?_, ?_⟩
  · -- Only readings and starts are changed.
    exact map_dataPoints_toDelta (fun _ _ _ => rfl) index metric
  · -- A cumulative sum is taken apart into series.
    intro monotonic points sum
    refine ⟨deltas points, by rw [toDelta_of_sum sum]; rfl, ?_, ?_⟩
    · -- Every point is in its own series and in no other one.
      intro placed member
      obtain ⟨series, isSeries, within, -⟩ := exists_isSeries member
      exact ⟨series, ⟨isSeries, within⟩, fun others isOther =>
        isOther.1.unique isSeries isOther.2 within⟩
    · -- Each run of a series of counts becomes its changes.
      intro series isSeries counted run cut fits
      exact isSeries.telescopes_deltas counted cut fits
  · intro other
    rcases metric.toDelta_cases index with ⟨monotonic, points, sum⟩ | ⟨-, idle⟩
    · -- It would be a cumulative sum.
      exact absurd sum (other monotonic points)
    · exact idle
  · intro again
    rcases (metric.toDelta index).value.toDelta_cases again with
      ⟨monotonic, points, sum⟩ | ⟨-, idle⟩
    · -- A delta sum is no cumulative one, and what is left alone was none before.
      rcases metric.toDelta_cases index with ⟨monotonic', points', before⟩ | ⟨other, same⟩
      · rw [toDelta_of_sum before] at sum
        cases sum
      · rw [same] at sum
        exact absurd sum (other monotonic points)
    · exact idle

/-- A counter read out of order and reset once goes from 5 by 4 and 3 to 12, and its reset is cut
off. -/
theorem telescopes_toDelta_counter :
    ∃ converted,
      (toDelta 0 ⟨"requests", "", "", [], some (.numbers (.sum .cumulative true)
        [counterAt 30 12, counterAt 10 5, counterAt 20 9, counterAt 40 2])⟩).value =
          ⟨"requests", "", "", [], some (.numbers (.sum .delta true) converted)⟩ ∧
      ∃ results, [converted[1]?, converted[2]?, converted[0]?] = results.map some ∧
        Telescopes [counterAt 10 5, counterAt 20 9, counterAt 30 12] results := by
  obtain ⟨-, telescopes, -⟩ := telescopes_toDelta
    ⟨"requests", "", "", [], some (.numbers (.sum .cumulative true)
      [counterAt 30 12, counterAt 10 5, counterAt 20 9, counterAt 40 2])⟩ 0
  obtain ⟨converted, same, -, telescopes⟩ := telescopes true _ rfl
  -- The series is listed by time, with the places that its points have among the points.
  have isSeries : IsSeries [counterAt 30 12, counterAt 10 5, counterAt 20 9, counterAt 40 2]
      [(counterAt 10 5, 1), (counterAt 20 9, 2), (counterAt 30 12, 0), (counterAt 40 2, 3)] := by
    refine ⟨fun placed member other => ?_, ?_⟩
    · -- None of the points has attributes, so that all belong together.
      have plain : placed.1.attributes = [] := by
        simp only [List.mem_cons, List.not_mem_nil, or_false] at member
        rcases member with rfl | rfl | rfl | rfl <;> rfl
      simp only [List.zipIdx_cons, List.zipIdx_nil, List.mem_cons, List.not_mem_nil, or_false]
      constructor
      · intro own
        have joined : other.1.attributes = [] := by rcases own with rfl | rfl | rfl | rfl <;> rfl
        exact ⟨by tauto, Or.inr fun key => by rw [joined, plain]; rfl⟩
      · rintro ⟨own, -⟩
        tauto
    · simp [PlacedPoint.Before, counterAt]
  refine ⟨converted, same, ?_⟩
  refine telescopes _ isSeries ?_
    [(counterAt 10 5, 1), (counterAt 20 9, 2), (counterAt 30 12, 0)] ?_ ?_
  · simp [NumberPoint.IsCount, counterAt]
  · simp [runs, List.splitBy, List.splitBy.loop, NumberPoint.count, counterAt]
  · have largest : Int64.maxValue.toInt = 9223372036854775807 := rfl
    simp [NumberPoint.count, counterAt, largest]

end Metric

end SchemaUplift
