import Mathlib.Data.List.Forall2
import SchemaUplift.Sample.Range

/-! What all samples of one order have in common: every value drawn is in its range, and the rest of
a sample does not depend on the seed. -/

namespace SchemaUplift.Sample

variable {α β γ : Type}

/-! ### Programs that draw -/

/-- Whatever the stream, what is drawn has the property. -/
def Draws (holds : α → Prop) (drawn : StateM Stream α) : Prop :=
  ∀ stream, holds (drawn.run stream).1

namespace Draws

/-- A value that takes no number has the properties it has. -/
theorem pure {holds : α → Prop} {value : α} (here : holds value) :
    Draws holds (Pure.pure value) := fun _ => here

/-- What is drawn after something else may rest on the property of what was drawn before. -/
theorem bind {before : α → Prop} {after : β → Prop} {drawn : StateM Stream α}
    {next : α → StateM Stream β} (first : Draws before drawn)
    (each : ∀ value, before value → Draws after (next value)) : Draws after (drawn >>= next) :=
  fun stream => each _ (first stream) _

/-- Drawing for each item of a list gives a list of what is drawn for the items. -/
theorem mapM {holds : α → β → Prop} {next : α → StateM Stream β} {items : List α}
    (each : ∀ item ∈ items, Draws (holds item) (next item)) :
    Draws (List.Forall₂ holds items) (items.mapM next) := by
  -- The induction draws for the first item before the others.
  induction items with
  | nil =>
    rw [List.mapM_nil]
    exact pure .nil
  | cons item rest ih =>
    obtain ⟨first, others⟩ := List.forall_mem_cons.1 each
    rw [List.mapM_cons]
    -- The rest is drawn from the stream as the first item leaves it, which may be any.
    exact first.bind fun value here => (ih others).bind fun values later => pure (.cons here later)

/-- Drawing for each item gives values that all have the property. -/
theorem mapM_mem {holds : β → Prop} {next : α → StateM Stream β} {items : List α}
    (each : ∀ item ∈ items, Draws holds (next item)) :
    Draws (∀ value ∈ ·, holds value) (items.mapM next) := by
  intro stream
  have drawn := mapM each stream
  -- The items are forgotten, and what is left is a fact about each value.
  exact ((List.forall₂_and_left _ _).1 (drawn.flip.imp fun _ _ here => ⟨here, trivial⟩)).1

/-- Drawing for each item gives values whose outlines the items determine. -/
theorem mapM_map {outline : β → γ} {common : α → γ} {next : α → StateM Stream β} {items : List α}
    (each : ∀ item ∈ items, Draws (outline · = common item) (next item)) :
    Draws (·.map outline = items.map common) (items.mapM next) := by
  intro stream
  have drawn := mapM each stream
  -- Two lists are equal if their items are, one by one.
  rw [← List.forall₂_eq_eq_eq, List.forall₂_map_left_iff, List.forall₂_map_right_iff]
  exact drawn.flip

end Draws

/-- A number drawn is below its bound. -/
theorem draws_draw {bound : Nat} (positive : 0 < bound) :
    Draws (· < bound) (Stream.draw bound) := fun _ => Nat.mod_lt _ positive

/-- The status attribute drawn has one of the codes that occur. -/
theorem draws_statusAttribute : Draws (fun entry => ∃ code ∈ statusCodes,
    entry = ⟨"http.status_code", .int code⟩) statusAttribute := by
  refine (draws_draw (by decide)).bind fun position below => .pure ?_
  -- A number below their count is the place of a code.
  exact ⟨statusCodes[position], List.getElem_mem below, by simp [below]⟩

/-! ### Ranges -/

/-- The attribute has one of the variants that occur for its key. -/
def IsVariant (entry : Attribute) : Prop :=
  ∃ variant < resourceVariants, entry.value = .string (resourceValue entry.key variant)

/-- A filler has none of the keys with drawn values. -/
theorem filler_notMem_resourceKeys (i : Nat) : s!"resource.attr.{i}" ∉ resourceKeys := by
  intro member
  -- The first letter tells them apart.
  have others : ∀ key ∈ resourceKeys, key.toList.head? ≠ some 'r' := by decide
  have opens := others _ member
  rw [String.toList_append] at opens
  exact opens rfl

/-- A resource is in range if each of its named attributes has a variant that occurs. -/
theorem resourceInRange_of_isVariant {resource : Resource}
    (each : ∀ entry ∈ resource.attributes, entry.key ∈ resourceKeys → IsVariant entry) :
    resourceInRange resource = true := by
  -- The range is looked at one attribute at a time.
  rw [resourceInRange, List.all_eq_true]
  intro entry member
  by_cases named : entry.key ∈ resourceKeys
  · -- The attribute was drawn as one of the variants.
    obtain ⟨variant, below, same⟩ := each entry member named
    have equal : (entry.value == .string (resourceValue entry.key variant)) = true := by
      simp [same, BEq.beq, Value.same]
    simpa [named] using ⟨variant, below, equal⟩
  · -- Any value will do for other attributes.
    simp [named]

/-- Resources are drawn in range. -/
theorem draws_resourceInRange (attributes : Nat) :
    Draws (resourceInRange · = true) (resource attributes) := by
  -- Each named attribute is drawn as a variant of its key.
  have named : Draws (∀ entry ∈ ·, IsVariant entry) (resourceKeys.mapM fun key => do
      return textAttribute key (resourceValue key (← Stream.draw resourceVariants))) := by
    refine .mapM_mem fun key _ => (draws_draw (by decide)).bind fun variant below => .pure ?_
    exact ⟨variant, below, rfl⟩
  refine named.bind fun entries drawn => .pure (resourceInRange_of_isVariant ?_)
  intro entry member key
  -- The named attributes were drawn as variants, and a filler is not named.
  rcases List.mem_append.1 member with first | filler
  · exact drawn entry first
  · obtain ⟨i, -, rfl⟩ := List.mem_map.1 filler
    exact absurd key (filler_notMem_resourceKeys i)

/-- After a status code that occurs, the other attributes decide. -/
theorem statusInRange_cons {code : Int64} (occurs : code ∈ statusCodes) (rest : Attributes) :
    statusInRange (⟨"http.status_code", .int code⟩ :: rest) = statusInRange rest := by
  have same : (statusCodes.any fun other => (Value.int code) == .int other) = true :=
    List.any_eq_true.2 ⟨code, occurs, by simp [BEq.beq, Value.same]⟩
  simp [statusInRange, same]

/-- A span is drawn in range if its times fit into their 64 bits. -/
theorem draws_spanInRange {index : Nat}
    (fits : baseTime + index * 1000 + longestSpan < UInt64.size) :
    Draws (spanInRange · = true) (span index) := by
  refine (draws_draw (by decide)).bind fun duration below => ?_
  refine draws_statusAttribute.bind ?_
  rintro _ ⟨code, occurs, rfl⟩
  refine .pure ?_
  rw [spanInRange, statusInRange_cons occurs]
  -- The other attributes of a span have no status code to look at.
  have others : statusInRange [textAttribute "http.method" "GET",
      textAttribute "http.route" s!"/api/{index % 10}"] = true := by
    simp [statusInRange, textAttribute]
  -- Neither time is cut, so the difference is the duration that was drawn.
  have size : UInt64.size = 18446744073709551616 := rfl
  have shortest : shortestSpan = 1000 := rfl
  have start : baseTime + index * 1000 < 2 ^ 64 := by omega
  have stop : baseTime + index * 1000 + shortestSpan + duration < 2 ^ 64 := by omega
  simp only [others, UInt64.toNat_ofNat', Nat.mod_eq_of_lt start, Nat.mod_eq_of_lt stop,
    Bool.and_eq_true, decide_eq_true_eq, true_and]
  omega

/-- Data points are drawn in range. -/
theorem draws_pointInRange (index : Nat) : Draws (pointInRange · = true) (point index) := by
  refine draws_statusAttribute.bind ?_
  rintro _ ⟨code, occurs, rfl⟩
  refine (draws_draw (by decide)).bind fun reading below => .pure ?_
  have bound : readingBound = 10000 := rfl
  -- The reading is far below the limit of its type, so it is the number drawn.
  have exact : (Int64.ofNat reading).toInt = reading := Int64.toInt_ofNat_of_lt (by omega)
  rw [pointInRange, statusInRange_cons occurs]
  simp only [exact, Bool.and_eq_true, decide_eq_true_eq]
  exact ⟨rfl, by omega, by omega⟩

/-- Metrics are drawn in range. -/
theorem draws_metricInRange (points index : Nat) :
    Draws (metricInRange · = true) (metric points index) := by
  have drawn := Draws.mapM_mem fun index (_ : index ∈ List.range points) => draws_pointInRange index
  exact drawn.bind fun points within => .pure (List.all_eq_true.2 within)

/-- Log records are drawn in range. -/
theorem draws_logRecordInRange (index : Nat) :
    Draws (statusInRange ·.attributes = true) (logRecord index) := by
  refine draws_statusAttribute.bind ?_
  rintro _ ⟨code, occurs, rfl⟩
  refine .pure ?_
  rw [statusInRange_cons occurs]
  rfl

/-- Batches are drawn in range if their items are. -/
theorem draws_batchesInRange {inRange : α → Bool} {item : Nat → StateM Stream α} {count : Nat}
    (each : ∀ index < count, Draws (inRange · = true) (item index)) (attributes : Nat) :
    Draws (batchesInRange inRange · = true) (batches item count attributes) := by
  have items := Draws.mapM_mem fun index member => each index (List.mem_range.1 member)
  refine items.bind fun items within => (draws_resourceInRange attributes).bind ?_
  intro resource fits
  refine .pure ?_
  simp [batchesInRange, fits, List.all_eq_true.2 within]

/-- Every value drawn for a request is in its range, as long as the times of all spans fit into
their 64 bits. -/
theorem inRange_request (order : Order) {count : Nat} (attributes : Nat) (seed : UInt64)
    (fits : order = .spans → baseTime + count * 1000 + longestSpan < UInt64.size) :
    inRange (request order count attributes seed) = true := by
  cases order with
  -- Spans are in range as long as their times are not cut.
  | spans =>
    refine draws_batchesInRange (fun index below => draws_spanInRange ?_) attributes ⟨seed⟩
    -- No span starts later than one behind the last would.
    have earlier : index * 1000 ≤ count * 1000 := Nat.mul_le_mul_right 1000 (Nat.le_of_lt below)
    exact Nat.lt_of_le_of_lt (Nat.add_le_add_right (Nat.add_le_add_left earlier _) _) (fits rfl)
  -- Metrics and log records have nothing that could be cut.
  | metrics points =>
    exact draws_batchesInRange (fun index _ => draws_metricInRange points index) attributes ⟨seed⟩
  | logs =>
    exact draws_batchesInRange (fun index _ => draws_logRecordInRange index) attributes ⟨seed⟩

/-- A request for four spans is in range. -/
example : inRange (request .spans 4 2 7) = true := inRange_request .spans 2 7 fun _ => by decide

/-! ### Outlines -/

/-- Whatever the stream, what is drawn has the same outline. -/
def Settles (outline : α → β) (drawn : StateM Stream α) : Prop :=
  ∃ common, Draws (outline · = common) drawn

/-- Drawing for each item of a list settles what it settles for one. -/
theorem Settles.mapM {outline : β → γ} {next : α → StateM Stream β}
    (each : ∀ item, Settles outline (next item)) (items : List α) :
    Settles (·.map outline) (items.mapM next) := by
  -- Each item has a common outline, and these are listed in order.
  choose common drawn using each
  exact ⟨items.map common, .mapM_map fun item _ => drawn item⟩

/-- Spans drawn at one place differ in status code and end alone. -/
theorem settles_span (index : Nat) : Settles spanOutline (span index) := by
  -- Any span drawn there may stand for all of them.
  refine ⟨spanOutline ((span index).run ⟨0⟩).1, ?_⟩
  -- Neither what is drawn for the end nor the code shows in the outline.
  refine (draws_draw (by decide)).bind fun duration _ => draws_statusAttribute.bind ?_
  rintro _ ⟨code, -, rfl⟩
  refine .pure ?_
  unfold span spanOutline
  congr 1

/-- Data points drawn at one place differ in status code and reading alone. -/
theorem settles_point (index : Nat) : Settles pointOutline (point index) := by
  refine ⟨pointOutline ((point index).run ⟨0⟩).1, draws_statusAttribute.bind ?_⟩
  rintro _ ⟨code, -, rfl⟩
  exact (draws_draw (by decide)).bind fun reading _ => .pure rfl

/-- Log records drawn at one place differ in status code alone. -/
theorem settles_logRecord (index : Nat) : Settles logRecordOutline (logRecord index) := by
  refine ⟨logRecordOutline ((logRecord index).run ⟨0⟩).1, draws_statusAttribute.bind ?_⟩
  rintro _ ⟨code, -, rfl⟩
  exact .pure rfl

/-- Metrics drawn at one place differ in their points alone, and those in what is drawn for them. -/
theorem settles_metric (points index : Nat) : Settles metricOutline (metric points index) := by
  -- The points have a common outline, which the metric has in it.
  obtain ⟨common, drawn⟩ := Settles.mapM settles_point (List.range points)
  refine ⟨⟨s!"metric{index}", "", "1", [], some (.numbers (.sum .cumulative true) common)⟩, ?_⟩
  refine drawn.bind fun points same => .pure ?_
  simpa [metricOutline] using same

/-- An outline of attributes is made one attribute at a time. -/
theorem attributesOutline_append (first last : Attributes) :
    attributesOutline (first ++ last) = attributesOutline first ++ attributesOutline last :=
  List.map_append

/-- Resources drawn differ in the values of named attributes alone. -/
theorem settles_resource (attributes : Nat) :
    Settles (fun resource => (attributesOutline resource.attributes, resource.dropped))
      (resource attributes) := by
  -- Of the named attributes the keys are left.
  have named : Draws (attributesOutline · = resourceKeys.map (⟨·, .absent⟩))
      (resourceKeys.mapM fun key => do
        return textAttribute key (resourceValue key (← Stream.draw resourceVariants))) := by
    refine .mapM_map fun key member => (draws_draw (by decide)).bind fun variant _ => .pure ?_
    simp [textAttribute, member]
  -- The fillers are the same in every resource.
  let fillers := ((List.range attributes).drop resourceKeys.length).map fun i =>
    textAttribute s!"resource.attr.{i}" s!"value-{i}"
  refine ⟨(resourceKeys.map (⟨·, .absent⟩) ++ attributesOutline fillers, 0), ?_⟩
  refine named.bind fun entries same => .pure ?_
  simp only [attributesOutline_append, same]
  rfl

/-- Batches differ in what is drawn for their resource and their items alone. -/
theorem settles_batches {outline : α → α} {item : Nat → StateM Stream α}
    (each : ∀ index, Settles outline (item index)) (count attributes : Nat) :
    Settles (batchesOutline outline) (batches item count attributes) := by
  obtain ⟨items, drawnItems⟩ := Settles.mapM each (List.range count)
  obtain ⟨⟨entries, dropped⟩, drawnResource⟩ := settles_resource attributes
  refine ⟨[⟨some ⟨entries, dropped⟩, "", [⟨none, "", items⟩]⟩], ?_⟩
  -- What is left of the items and the resource is put together.
  refine drawnItems.bind fun drawn same => drawnResource.bind ?_
  rintro ⟨attributes, dropped⟩ ⟨⟩
  refine .pure ?_
  simp [batchesOutline, same]

/-- What is left of a request without the values drawn for it does not depend on the seed. -/
theorem outline_request (order : Order) (count attributes : Nat) (seed other : UInt64) :
    outline (request order count attributes seed) =
      outline (request order count attributes other) := by
  -- Either request has the outline that all requests for the order have.
  cases order with
  | spans =>
    obtain ⟨common, drawn⟩ := settles_batches settles_span count attributes
    exact congrArg ExportRequest.traces ((drawn ⟨seed⟩).trans (drawn ⟨other⟩).symm)
  | metrics points =>
    obtain ⟨common, drawn⟩ := settles_batches (settles_metric points) count attributes
    exact congrArg ExportRequest.metrics ((drawn ⟨seed⟩).trans (drawn ⟨other⟩).symm)
  | logs =>
    obtain ⟨common, drawn⟩ := settles_batches settles_logRecord count attributes
    exact congrArg ExportRequest.logs ((drawn ⟨seed⟩).trans (drawn ⟨other⟩).symm)

end SchemaUplift.Sample
