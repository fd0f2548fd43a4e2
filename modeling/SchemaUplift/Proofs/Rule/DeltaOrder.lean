import SchemaUplift.Proofs.Rule.Series

/-! What becomes of a point of a cumulative sum depends on the points alone, neither on their order
in the list nor on the order of their attributes. -/

namespace SchemaUplift

/-! ### Points of two lists that correspond -/

/-- Points of one list correspond to those of another one: they differ in the order of their
attributes at most, and come in the same order within a series. -/
structure Corresponds (f : PlacedPoint → PlacedPoint) (points others : List NumberPoint) :
    Prop where
  /-- Each point has a counterpart. -/
  maps : ∀ placed ∈ points.zipIdx, f placed ∈ others.zipIdx
  /-- Each point of the other list is a counterpart. -/
  onto : ∀ other ∈ others.zipIdx, ∃ placed ∈ points.zipIdx, f placed = other
  /-- Different points have different counterparts. -/
  injective : ∀ placed ∈ points.zipIdx, ∀ next ∈ points.zipIdx, f placed = f next → placed = next
  /-- A counterpart has the same data but for its attributes. -/
  alike : ∀ placed ∈ points.zipIdx,
    (f placed).1 = { placed.1 with attributes := (f placed).1.attributes }
  /-- Its keys have the same values. -/
  values : ∀ placed ∈ points.zipIdx, ∀ key,
    (f placed).1.attributes.valuesOf key = placed.1.attributes.valuesOf key
  /-- Counterparts of points of one series are in the same order. -/
  ordered : ∀ placed ∈ points.zipIdx, ∀ next ∈ points.zipIdx,
    PlacedPoint.Joins placed next → PlacedPoint.Before placed next → (f placed).Before (f next)

/-- The change between counterparts is the change between the points. -/
theorem NumberPoint.since_of_alike {point next other otherNext : NumberPoint}
    (alike : other = { point with attributes := other.attributes })
    (nextAlike : otherNext = { next with attributes := otherNext.attributes }) :
    otherNext.since other =
      { next.since point with attributes := otherNext.attributes } := by
  -- The change looks at readings and times, which are the same for the counterparts.
  rw [alike, nextAlike]
  unfold since
  simp only
  repeat' split
  all_goals rfl

namespace Corresponds

variable {f : PlacedPoint → PlacedPoint} {points others : List NumberPoint}
  {series : List PlacedPoint} {placed next : PlacedPoint}

/-- Points belong together if their counterparts do. -/
theorem joins_iff (corresponds : Corresponds f points others) (member : placed ∈ points.zipIdx)
    (nextMember : next ∈ points.zipIdx) : (f placed).Joins (f next) ↔ placed.Joins next := by
  -- Counterparts are different points for different points, and have equal values for each key.
  refine or_congr ⟨corresponds.injective placed member next nextMember, congrArg f⟩ ?_
  refine forall_congr' fun key => ?_
  rw [corresponds.values placed member, corresponds.values next nextMember]

/-- The counterparts of a series are a series. -/
theorem isSeries (corresponds : Corresponds f points others) (isSeries : IsSeries points series) :
    IsSeries others (series.map f) := by
  -- Every point of the series is one of the list.
  have held {placed : PlacedPoint} (within : placed ∈ series) : placed ∈ points.zipIdx :=
    isSeries.mem_zipIdx within
  -- Members go over to the other list and back; the order within the series goes over.
  refine ⟨?_, ?_⟩
  · -- A counterpart is of the series exactly if it belongs with the others.
    intro mapped member other
    obtain ⟨placed, within, rfl⟩ := List.mem_map.1 member
    constructor
    · -- A counterpart in the series comes from a point in the series, which joins the others.
      intro otherMember
      obtain ⟨next, nextWithin, rfl⟩ := List.mem_map.1 otherMember
      exact ⟨corresponds.maps next (held nextWithin),
        (corresponds.joins_iff (held nextWithin) (held within)).2
          ((isSeries.members placed within next).1 nextWithin).2⟩
    · -- A point of the other list that joins a counterpart has a point of its own, which joins too.
      rintro ⟨otherMember, joined⟩
      obtain ⟨next, nextHeld, rfl⟩ := corresponds.onto other otherMember
      exact List.mem_map_of_mem ((isSeries.members placed within next).2
        ⟨nextHeld, (corresponds.joins_iff nextHeld (held within)).1 joined⟩)
  · -- The order within the series is the order of the counterparts.
    rw [List.pairwise_map]
    refine isSeries.ordered.imp_of_mem fun within nextWithin before => ?_
    exact corresponds.ordered _ (held within) _ (held nextWithin)
      ((isSeries.members _ nextWithin _).1 within).2 before

/-- What becomes of the counterpart of a point is what becomes of the point. -/
theorem getElem?_deltas (corresponds : Corresponds f points others)
    (member : placed ∈ points.zipIdx) :
    (deltas others)[(f placed).2]? = (deltas points)[placed.2]?.map
      ({ · with attributes := (f placed).1.attributes }) := by
  -- The point is of some series, in which it is the first or has a predecessor.
  obtain ⟨series, isSeries, within, -⟩ := exists_isSeries member
  obtain ⟨front, back, rfl⟩ := List.append_of_mem within
  have counterparts := corresponds.isSeries isSeries
  -- The predecessor of the counterpart is the counterpart of the predecessor, if there is one.
  rcases List.eq_nil_or_concat front with rfl | ⟨front, before, rfl⟩
  · -- The first point of a series stays as it is, and so does its counterpart.
    rw [isSeries.getElem?_deltas_first, counterparts.getElem?_deltas_first, Option.map_some,
      ← corresponds.alike placed member]
  · -- Otherwise both become the change since their predecessors, which correspond.
    have beforeMember : before ∈ points.zipIdx := isSeries.mem_zipIdx (by simp)
    have becomes := isSeries.getElem?_deltas (by simp : _ = front ++ before :: placed :: back)
    have otherBecomes := counterparts.getElem?_deltas
      (by simp : _ = front.map f ++ f before :: f placed :: back.map f)
    rw [becomes, otherBecomes, Option.map_some, NumberPoint.since_of_alike
      (corresponds.alike before beforeMember) (corresponds.alike placed member)]

end Corresponds

/-! ### Points in another order -/

/-- The other points are the same points in another order, which tells where each of them was. -/
structure Rearranges (order : List Nat) (points others : List NumberPoint) : Prop where
  /-- The order has each position once. -/
  positions : order.Perm (List.range points.length)
  /-- Each point is the one that the order tells. -/
  points : order.map (points[·]?) = others.map some

/-- Points at different positions have different times if they are of one series. -/
theorem time_ne_of_apart {points : List NumberPoint}
    (apart : points.Pairwise fun point other => point.SameSeries other → point.time ≠ other.time)
    {place next : Nat} {point other : NumberPoint} (different : place ≠ next)
    (held : points[place]? = some point) (nextHeld : points[next]? = some other)
    (same : point.SameSeries other) : point.time ≠ other.time := by
  -- Both points stand within the list.
  obtain ⟨within, rfl⟩ := List.getElem?_eq_some_iff.1 held
  obtain ⟨nextWithin, rfl⟩ := List.getElem?_eq_some_iff.1 nextHeld
  rw [List.pairwise_iff_getElem] at apart
  -- The condition is about the earlier and the later point, whichever is which.
  rcases Nat.lt_or_gt_of_ne different with earlier | later
  · exact apart place next within nextWithin earlier same
  · exact (apart next place nextWithin within later same.symm).symm

namespace Rearranges

variable {order : List Nat} {points others : List NumberPoint}

/-- A point is found where the order tells. -/
theorem getElem?_eq_some_iff (rearranges : Rearranges order points others) {position : Nat}
    {point : NumberPoint} : others[position]? = some point ↔
      ∃ place, order[position]? = some place ∧ points[place]? = some point := by
  -- Both sides say what stands at the position in the list of points found.
  have same : order[position]?.map (points[·]?) = others[position]?.map some := by
    rw [← List.getElem?_map, ← List.getElem?_map, rearranges.points]
  constructor
  · -- A point found at the position is one that the order tells.
    intro found
    rw [found, Option.map_some, Option.map_eq_some_iff] at same
    exact same
  · -- A point that the order tells is what is found at the position.
    rintro ⟨place, told, found⟩
    rw [told, Option.map_some, found, eq_comm, Option.map_eq_some_iff] at same
    obtain ⟨other, found, equal⟩ := same
    rw [found, Option.some.inj equal]

/-- A place is told once. -/
theorem position_inj (rearranges : Rearranges order points others) {position next place : Nat}
    (told : order[position]? = some place) (nextTold : order[next]? = some place) :
    position = next := by
  -- An order that has each position once tells each place once.
  have distinct := rearranges.positions.nodup_iff.2 List.nodup_range
  exact (List.getElem?_inj (List.getElem?_eq_some_iff.1 told).1 distinct).1
    (told.trans nextTold.symm)

/-- The points in another order correspond to the points, if no two points of a series have the same
time. -/
theorem corresponds (rearranges : Rearranges order points others)
    (apart : points.Pairwise fun point other => point.SameSeries other → point.time ≠ other.time) :
    Corresponds (fun placed => (placed.1, (order[placed.2]?).getD 0)) others points := by
  -- Each point has a place, and it is the same point there.
  have found {placed : PlacedPoint} (member : placed ∈ others.zipIdx) :
      ∃ place, order[placed.2]? = some place ∧ points[place]? = some placed.1 :=
    rearranges.getElem?_eq_some_iff.1 (List.mem_zipIdx_iff_getElem?.1 member)
  -- Points that come from one place are one point.
  have same_place {placed next : PlacedPoint} {place : Nat}
      (told : order[placed.2]? = some place) (nextTold : order[next.2]? = some place)
      (found : points[place]? = some placed.1) (nextFound : points[place]? = some next.1) :
      placed = next :=
    Prod.ext (Option.some.inj (found.symm.trans nextFound))
      (rearranges.position_inj told nextTold)
  refine ⟨?_, ?_, ?_, fun _ _ => rfl, fun _ _ _ => rfl, ?_⟩
  · -- A point goes to the place that is told for it.
    intro placed member
    obtain ⟨place, told, found⟩ := found member
    rw [List.mk_mem_zipIdx_iff_getElem?, told]
    exact found
  · -- The order has the place of every point.
    rintro ⟨point, place⟩ member
    rw [List.mk_mem_zipIdx_iff_getElem?] at member
    have within : place ∈ order := rearranges.positions.mem_iff.2
      (List.mem_range.2 (List.getElem?_eq_some_iff.1 member).1)
    obtain ⟨position, told⟩ := List.mem_iff_getElem?.1 within
    refine ⟨(point, position), ?_, by simp [told]⟩
    rw [List.mk_mem_zipIdx_iff_getElem?, rearranges.getElem?_eq_some_iff]
    exact ⟨place, told, member⟩
  · -- Points with one place are one point at one position.
    intro placed member next nextMember equal
    obtain ⟨place, told, held⟩ := found member
    obtain ⟨nextPlace, nextTold, nextHeld⟩ := found nextMember
    obtain rfl : place = nextPlace := by simpa [told, nextTold] using congrArg Prod.snd equal
    exact same_place told nextTold held nextHeld
  · -- What comes before does so by its time alone.
    intro placed member next nextMember joined before
    obtain ⟨place, told, held⟩ := found member
    obtain ⟨nextPlace, nextTold, nextHeld⟩ := found nextMember
    refine ⟨before.1, fun time => ?_⟩
    -- Points of one series and one time are one and the same, which does not come before itself.
    exfalso
    rcases joined with rfl | series
    · exact before.asymm before
    · -- Points at one place are the same point, which excludes that one comes before the other.
      by_cases same : place = nextPlace
      · obtain rfl := same_place told (same ▸ nextTold) held (same ▸ nextHeld)
        exact before.asymm before
      · -- Points at different places of one series have different times.
        exact time_ne_of_apart apart same held nextHeld series time

/-- What the points in another order become is what the points become, in that order. -/
theorem rearranges_deltas (rearranges : Rearranges order points others)
    (apart : points.Pairwise fun point other => point.SameSeries other → point.time ≠ other.time) :
    Rearranges order (deltas points) (deltas others) := by
  refine ⟨?_, List.ext_getElem? fun position => ?_⟩
  · -- There are as many points after as before, so the order still fits.
    rw [length_deltas]
    exact rearranges.positions
  -- The points are compared position by position.
  rw [List.getElem?_map, List.getElem?_map]
  cases held : others[position]? with
  -- Behind the last point there is nothing on either side.
  | none =>
    have size : order.length = others.length := by
      simpa using congrArg List.length rearranges.points
    have beyond := List.getElem?_eq_none_iff.1 held
    rw [List.getElem?_eq_none (size ▸ beyond),
      List.getElem?_eq_none (length_deltas others ▸ beyond)]
    rfl
  -- A point found at the position becomes what its counterpart becomes.
  | some point =>
    obtain ⟨place, told, found⟩ := rearranges.getElem?_eq_some_iff.1 held
    have becomes := (rearranges.corresponds apart).getElem?_deltas
      (List.mk_mem_zipIdx_iff_getElem?.2 held)
    simp only [told, Option.getD_some] at becomes
    -- The point itself did not change in its attributes, so neither does the result.
    have attributes : (deltas others)[position]?.map (·.attributes) = some point.attributes := by
      rw [← List.getElem?_map, map_deltas fun _ _ _ => rfl, List.getElem?_map, held,
        Option.map_some]
    obtain ⟨result, written, same⟩ := Option.map_eq_some_iff.1 attributes
    rw [told, Option.map_some, becomes, written, Option.map_some, Option.map_some, ← same]

end Rearranges

/-! ### Attributes in another order -/

/-- The other point is the same point, or it has the same attributes with distinct keys in another
order. -/
def NumberPoint.Shuffles (point other : NumberPoint) : Prop :=
  other = point ∨ point.attributes.HasDistinctKeys ∧
    ∃ attributes, attributes.Perm point.attributes ∧ other = { point with attributes }

namespace NumberPoint.Shuffles

variable {point other : NumberPoint}

/-- The other point has the same data but for its attributes. -/
theorem alike (shuffles : point.Shuffles other) :
    other = { point with attributes := other.attributes } := by
  -- The same point has all the same, and a shuffled one differs in the attributes that it names.
  rcases shuffles with rfl | ⟨-, attributes, -, rfl⟩ <;> rfl

/-- Keys have the same values. -/
theorem valuesOf_eq (shuffles : point.Shuffles other) (key : String) :
    other.attributes.valuesOf key = point.attributes.valuesOf key := by
  -- The values of a key may be listed in another order, but distinct keys have one value each.
  rcases shuffles with rfl | ⟨distinct, attributes, perm, rfl⟩
  · rfl
  · exact Attributes.valuesOf_perm distinct perm key

end NumberPoint.Shuffles

/-- Points with their attributes in another order correspond to the points. -/
theorem corresponds_of_shuffles {points others : List NumberPoint}
    (shuffles : List.Forall₂ NumberPoint.Shuffles points others) :
    Corresponds (fun placed => ((others[placed.2]?).getD placed.1, placed.2)) points others := by
  -- A point and its counterpart stand at the same position.
  obtain ⟨sizes, each⟩ := List.forall₂_iff_get.1 shuffles
  -- Each point has its counterpart at the same position, with its attributes shuffled.
  have found {placed : PlacedPoint} (member : placed ∈ points.zipIdx) :
      ∃ other, others[placed.2]? = some other ∧ placed.1.Shuffles other := by
    rw [List.mem_zipIdx_iff_getElem?, List.getElem?_eq_some_iff] at member
    obtain ⟨within, point⟩ := member
    have shuffles := each placed.2 within (sizes ▸ within)
    rw [List.get_eq_getElem, point] at shuffles
    exact ⟨_, List.getElem?_eq_getElem (sizes ▸ within), shuffles⟩
  refine ⟨?_, ?_, ?_, ?_, ?_, ?_⟩
  · -- The counterpart stands in the other list.
    intro placed member
    obtain ⟨other, held, -⟩ := found member
    rw [List.mk_mem_zipIdx_iff_getElem?, held]
    rfl
  · -- Both lists are as long, so there is a point at the position of every counterpart.
    rintro ⟨other, position⟩ member
    rw [List.mk_mem_zipIdx_iff_getElem?] at member
    have within := (List.getElem?_eq_some_iff.1 member).1
    refine ⟨(points[position], position), ?_, by simp [member]⟩
    rw [List.mk_mem_zipIdx_iff_getElem?]
    exact List.getElem?_eq_getElem (sizes ▸ within)
  · -- The positions are the same already, and there is one point at each.
    intro placed member next nextMember equal
    obtain ⟨-, position⟩ := Prod.mk.inj equal
    rw [List.mem_zipIdx_iff_getElem?] at member nextMember
    exact Prod.ext (Option.some.inj (member.symm.trans (position ▸ nextMember))) position
  · -- The data is the same but for the attributes.
    intro placed member
    obtain ⟨other, held, shuffles⟩ := found member
    rw [held]
    exact shuffles.alike
  · -- Keys have the values that they had.
    intro placed member key
    obtain ⟨other, held, shuffles⟩ := found member
    rw [held]
    exact shuffles.valuesOf_eq key
  · -- The order looks at times and positions, which are the same.
    intro placed member next nextMember joined before
    obtain ⟨other, held, shuffles⟩ := found member
    obtain ⟨otherNext, nextHeld, nextShuffles⟩ := found nextMember
    rw [PlacedPoint.Before, held, nextHeld]
    simp only [Option.getD_some]
    rw [shuffles.alike, nextShuffles.alike]
    exact before

/-- What becomes of points does not depend on the order of their attributes. -/
theorem map_deltas_of_shuffles {points others : List NumberPoint}
    (shuffles : List.Forall₂ NumberPoint.Shuffles points others) :
    (deltas others).map (fun point => (point.start, point.reading)) =
      (deltas points).map (fun point => (point.start, point.reading)) := by
  -- The results are compared position by position.
  refine List.ext_getElem? fun position => ?_
  rw [List.getElem?_map, List.getElem?_map]
  cases held : points[position]? with
  -- Behind the last point there is nothing on either side.
  | none =>
    have beyond := List.getElem?_eq_none_iff.1 held
    have absent : (deltas points)[position]? = none :=
      List.getElem?_eq_none (by rwa [length_deltas])
    have otherAbsent : (deltas others)[position]? = none :=
      List.getElem?_eq_none (by rwa [length_deltas, ← shuffles.length_eq])
    rw [absent, otherAbsent]
  -- The start and the reading of the counterpart are those of the point.
  | some point =>
    rw [(corresponds_of_shuffles shuffles).getElem?_deltas
      (List.mk_mem_zipIdx_iff_getElem?.2 held), Option.map_map]
    rfl

/-! ### Metrics -/

/-- A reading of a counter for a route and a code. -/
def routedAt (time : UInt64) (value : Int64) : NumberPoint :=
  ⟨[⟨"route", .string "/a"⟩, ⟨"code", .int 200⟩], 1, time, 0, some (.int value)⟩

namespace Metric

/-- Turning a cumulative sum into a delta sum does not depend on the order of its points, if those
of one series have different times, nor on the order of distinct attributes of a point. -/
theorem toDelta_rearranged {metric : Metric} {monotonic : Bool} {points : List NumberPoint}
    (sum : metric.data = some (.numbers (.sum .cumulative monotonic) points)) (index : Nat) :
    ∃ converted, (metric.toDelta index).value =
        { metric with data := some (.numbers (.sum .delta monotonic) converted) } ∧
      ((points.Pairwise fun point other => point.SameSeries other → point.time ≠ other.time) →
        ∀ order others, Rearranges order points others → ∃ rearranged,
          (toDelta index { metric with
            data := some (.numbers (.sum .cumulative monotonic) others) }).value =
              { metric with data := some (.numbers (.sum .delta monotonic) rearranged) } ∧
          Rearranges order converted rearranged) ∧
      ∀ others, List.Forall₂ NumberPoint.Shuffles points others → ∃ shuffled,
        (toDelta index { metric with
          data := some (.numbers (.sum .cumulative monotonic) others) }).value =
            { metric with data := some (.numbers (.sum .delta monotonic) shuffled) } ∧
        shuffled.map (fun point => (point.start, point.reading)) =
          converted.map fun point => (point.start, point.reading) := by
  -- Whatever the points, the sum becomes a delta sum of their changes.
  have becomes (others : List NumberPoint) :
      (toDelta index { metric with
        data := some (.numbers (.sum .cumulative monotonic) others) }).value =
          { metric with data := some (.numbers (.sum .delta monotonic) (deltas others)) } := by
    rw [toDelta_of_sum rfl]
    rfl
  refine ⟨deltas points, by rw [toDelta_of_sum sum]; rfl, ?_, ?_⟩
  · -- Points in another order become the same points in that order.
    intro apart order others rearranges
    exact ⟨deltas others, becomes others, rearranges.rearranges_deltas apart⟩
  · -- Points with their attributes shuffled become points with the same starts and readings.
    intro others shuffles
    exact ⟨deltas others, becomes others, map_deltas_of_shuffles shuffles⟩

/-- Two readings may change places, and so may the two attributes of one of them. -/
theorem toDelta_rearranged_two :
    ∃ converted,
      (toDelta 0 ⟨"requests", "", "", [], some (.numbers (.sum .cumulative true)
        [routedAt 10 5, routedAt 20 9])⟩).value =
          ⟨"requests", "", "", [], some (.numbers (.sum .delta true) converted)⟩ ∧
      (∃ rearranged,
        (toDelta 0 ⟨"requests", "", "", [], some (.numbers (.sum .cumulative true)
          [routedAt 20 9, routedAt 10 5])⟩).value =
            ⟨"requests", "", "", [], some (.numbers (.sum .delta true) rearranged)⟩ ∧
        Rearranges [1, 0] converted rearranged) ∧
      ∃ shuffled,
        (toDelta 0 ⟨"requests", "", "", [], some (.numbers (.sum .cumulative true)
          [{ routedAt 10 5 with attributes := (routedAt 10 5).attributes.reverse },
            routedAt 20 9])⟩).value =
              ⟨"requests", "", "", [], some (.numbers (.sum .delta true) shuffled)⟩ ∧
        shuffled.map (fun point => (point.start, point.reading)) =
          converted.map fun point => (point.start, point.reading) := by
  have sum : (⟨"requests", "", "", [], some (.numbers (.sum .cumulative true)
      [routedAt 10 5, routedAt 20 9])⟩ : Metric).data =
        some (.numbers (.sum .cumulative true) [routedAt 10 5, routedAt 20 9]) := rfl
  -- The theorem is about any order and any shuffle, of which one of each is shown.
  obtain ⟨converted, becomes, rearranged, shuffled⟩ := toDelta_rearranged sum 0
  refine ⟨converted, becomes, rearranged ?_ [1, 0] [routedAt 20 9, routedAt 10 5] ⟨?_, rfl⟩,
    shuffled _ (.cons (Or.inr ⟨?_, _, List.reverse_perm _, rfl⟩) (.cons (Or.inl rfl) .nil))⟩
  · -- The two times are different.
    simp [routedAt]
  · exact .swap 0 1 []
  · -- The two keys are different.
    simp [Attributes.HasDistinctKeys, routedAt]

end Metric

end SchemaUplift
