import SchemaUplift.Attempt

/-! Laws of attempts: what follows an attempt may be grouped at will, and steps in sequence and
walks over lists may be cut anywhere. -/

namespace SchemaUplift.Attempt

variable {ρ ε α : Type}

/-- What follows an attempt without changes sees its value alone. -/
@[simp] theorem unchanged_andThen (value : α) (next : α → Attempt ρ ε α) :
    (unchanged value).andThen next = next value := rfl

/-- An attempt is as it was when nothing is changed after it. -/
@[simp] theorem andThen_unchanged (attempt : Attempt ρ ε α) :
    attempt.andThen unchanged = attempt := by
  obtain ⟨value, records, failure⟩ := attempt
  -- After a failure nothing follows, and what follows a success adds nothing.
  cases failure <;> simp [andThen, unchanged]

/-- An attempt that failed is followed by nothing. -/
theorem andThen_of_failure {attempt : Attempt ρ ε α} {failure : ε}
    (failed : attempt.failure = some failure) (next : α → Attempt ρ ε α) :
    attempt.andThen next = attempt := by
  simp [andThen, failed]

/-- An attempt that succeeded is followed by the next one, whose records come last. -/
theorem andThen_of_success {attempt : Attempt ρ ε α} (succeeded : attempt.failure = none)
    (next : α → Attempt ρ ε α) :
    attempt.andThen next = ⟨(next attempt.value).value,
      attempt.records ++ (next attempt.value).records, (next attempt.value).failure⟩ := by
  simp [andThen, succeeded]

/-- Only the value that a successful attempt leaves matters to what follows. -/
theorem andThen_congr {attempt : Attempt ρ ε α} {next other : α → Attempt ρ ε α}
    (same : next attempt.value = other attempt.value) :
    attempt.andThen next = attempt.andThen other := by
  simp only [andThen, same]

/-- Three attempts one after the other may be grouped from either side. -/
theorem andThen_assoc (attempt : Attempt ρ ε α) (next last : α → Attempt ρ ε α) :
    (attempt.andThen next).andThen last =
      attempt.andThen fun value => (next value).andThen last := by
  -- The first failure on either side is the same one, and ends both alike.
  cases first : attempt.failure with
  | some failure => simp only [andThen_of_failure first]
  | none =>
    rw [andThen_of_success first, andThen_of_success first]
    cases second : (next attempt.value).failure with
    | some failure => simp [andThen, second]
    | none => simp [andThen, second]

/-- Steps in sequence are the first steps followed by the others. -/
theorem inSequence_append (first last : List (α → Attempt ρ ε α)) (value : α) :
    inSequence (first ++ last) value = (inSequence first value).andThen (inSequence last) := by
  -- The induction moves the first step out of both sides.
  induction first generalizing value with
  | nil => rfl
  | cons step rest ih =>
    -- The first step comes before all the others, in either grouping.
    simp only [List.cons_append, inSequence]
    rw [andThen_assoc]
    exact congrArg _ (funext ih)

/-- Steps may be left out that change nothing on the values that come up. -/
theorem inSequence_map_filter {ι : Type} {step : ι → α → Attempt ρ ε α} {test : ι → Bool}
    (comesUp : α → Prop)
    (idle : ∀ item value, comesUp value → test item = false → step item value = unchanged value)
    (kept : ∀ item value, comesUp value → comesUp (step item value).value)
    (items : List ι) {value : α} (start : comesUp value) :
    inSequence ((items.filter test).map step) value = inSequence (items.map step) value := by
  -- The induction takes the first step where it is needed, and passes over it where it is idle.
  induction items generalizing value with
  | nil => rfl
  | cons item rest ih =>
    cases needed : test item with
    | true =>
      -- The step is needed, and what comes up behind it is what it leaves.
      rw [List.filter_cons_of_pos needed]
      exact andThen_congr (ih (kept item value start))
    | false =>
      -- The step would leave the value alone.
      rw [List.filter_cons_of_neg (by simp [needed]), ih start, List.map_cons, inSequence,
        idle item value start needed, unchanged_andThen]

/-- Steps that all leave a value alone do so in sequence. -/
theorem inSequence_eq_unchanged {steps : List (α → Attempt ρ ε α)} {value : α}
    (idle : ∀ step ∈ steps, step value = unchanged value) :
    inSequence steps value = unchanged value := by
  induction steps with
  | nil => rfl
  | cons step rest ih =>
    obtain ⟨first, others⟩ := List.forall_mem_cons.1 idle
    -- The first step hands the value on as it came.
    rw [inSequence, first, unchanged_andThen, ih others]

/-- Steps that leave every item of a list alone leave the list alone. -/
theorem forEach_eq_unchanged {step : Nat → α → Attempt ρ ε α} {items : List α}
    (idle : ∀ index, ∀ item ∈ items, step index item = unchanged item) :
    forEach step items = unchanged items := by
  -- The walk may start at any index, which the first item leads away from.
  suffices walk : ∀ index, forEachFrom index step items = unchanged items from walk 0
  induction items with
  | nil =>
    intro index
    rfl
  | cons item rest ih =>
    intro index
    have others : ∀ index, ∀ other ∈ rest, step index other = unchanged other :=
      -- The other items are left alone as well.
      fun index other member => idle index other (by simp [member])
    -- The first item is left alone without a record, and so are the others.
    simp only [forEachFrom, idle index item (by simp), ih others]
    rfl

/-! ### What is kept, also by an attempt that fails -/

variable {β : Type}

/-- What every step keeps is kept by the steps in sequence, wherever they stop. -/
theorem keeps_value_inSequence {f : α → β} {steps : List (α → Attempt ρ ε α)}
    (keeps : ∀ step ∈ steps, ∀ value, f (step value).value = f value) (value : α) :
    f (inSequence steps value).value = f value := by
  induction steps generalizing value with
  | nil => rfl
  | cons step rest ih =>
    obtain ⟨first, others⟩ := List.forall_mem_cons.1 keeps
    rw [inSequence]
    cases failure : (step value).failure with
    -- The step fails, and the sequence ends with it.
    | some cause =>
      rw [andThen_of_failure failure]
      exact first value
    | none =>
      -- The other steps go on from what the first one has left.
      rw [andThen_of_success failure]
      exact (ih others _).trans (first value)

/-- What a step keeps of every item is kept of all items, wherever the walk over them stops. -/
theorem map_value_forEach {f : α → β} {step : Nat → α → Attempt ρ ε α}
    (keeps : ∀ index item, f (step index item).value = f item) (items : List α) :
    (forEach step items).value.map f = items.map f := by
  -- The walk may start at any index.
  suffices walk : ∀ index, (forEachFrom index step items).value.map f = items.map f from walk 0
  induction items with
  | nil =>
    intro index
    rfl
  | cons item rest ih =>
    intro index
    simp only [forEachFrom]
    -- After a failure the rest of the list is as it was.
    split
    · -- The walk ends at the item, and the others are as they were.
      simp [map, keeps]
    · -- The walk goes on behind the item.
      simp [keeps, ih]

/-! ### Mapped records -/

variable {σ : Type}

/-- Only what a map makes of the records there are matters. -/
theorem mapRecords_congr {f g : ρ → σ} {attempt : Attempt ρ ε α}
    (same : ∀ record ∈ attempt.records, f record = g record) :
    attempt.mapRecords f = attempt.mapRecords g := by
  simp only [mapRecords, List.map_congr_left same]

/-- Two maps one after the other are one. -/
theorem mapRecords_mapRecords {τ : Type} (f : ρ → σ) (g : σ → τ) (attempt : Attempt ρ ε α) :
    (attempt.mapRecords f).mapRecords g = attempt.mapRecords fun record => g (f record) := by
  simp [mapRecords]

/-- Records are mapped alike before and after what follows an attempt. -/
theorem mapRecords_andThen (f : ρ → σ) (attempt : Attempt ρ ε α) (next : α → Attempt ρ ε α) :
    (attempt.andThen next).mapRecords f =
      (attempt.mapRecords f).andThen fun value => (next value).mapRecords f := by
  obtain ⟨value, records, failure⟩ := attempt
  -- What follows only a success has its records mapped with it.
  cases failure <;> simp [andThen, mapRecords]

/-- The records of a sequence are mapped step by step. -/
theorem mapRecords_inSequence (f : ρ → σ) (steps : List (α → Attempt ρ ε α)) (value : α) :
    (inSequence steps value).mapRecords f =
      inSequence (steps.map fun step value => (step value).mapRecords f) value := by
  induction steps generalizing value with
  | nil => rfl
  | cons step rest ih =>
    -- The first step has its records mapped on its own.
    rw [inSequence, mapRecords_andThen, List.map_cons, inSequence]
    exact congrArg _ (funext ih)

/-- The records of a walk are mapped item by item, wherever the walk starts to count. -/
theorem mapRecords_forEachFrom {f : ρ → σ} {step : Nat → α → Attempt ρ ε α}
    {other : Nat → α → Attempt σ ε α} (offset : Nat)
    (each : ∀ index item, other (index + offset) item = (step index item).mapRecords f)
    (index : Nat) (items : List α) :
    forEachFrom (index + offset) other items = (forEachFrom index step items).mapRecords f := by
  induction items generalizing index with
  | nil => rfl
  | cons item rest ih =>
    have others := ih (index + 1)
    -- Behind the item both walks have counted one more.
    rw [Nat.add_right_comm] at others
    rw [forEachFrom, forEachFrom, each, others]
    generalize step index item = first
    obtain ⟨value, records, failure⟩ := first
    -- A failure ends both walks alike.
    cases failure <;> simp [mapRecords, map]

/-! ### Lists in two parts -/

/-- A walk over two lists goes on with the second one only after a success on the first. -/
theorem forEachFrom_append (index : Nat) (step : Nat → α → Attempt ρ ε α)
    (items further : List α) :
    forEachFrom index step (items ++ further) =
      let begun := forEachFrom index step items
      match begun.failure with
      | some _ => begun.map (· ++ further)
      | none =>
        let rest := forEachFrom (index + items.length) step further
        ⟨begun.value ++ rest.value, begun.records ++ rest.records, rest.failure⟩ := by
  -- The induction moves the first item out of both sides.
  induction items generalizing index with
  | nil => rfl
  | cons item others ih =>
    have place : index + (item :: others).length = index + 1 + others.length := by
      simp only [List.length_cons]
      omega
    -- The first item is taken alike on both sides.
    rw [List.cons_append, forEachFrom, forEachFrom, ih, place]
    generalize step index item = first
    obtain ⟨value, records, failure⟩ := first
    cases failure with
    -- The walk ends within the first list, and the second one stays as it was.
    | some cause => rfl
    | none =>
      -- The walk over the other items of the first list decides.
      cases failed : (forEachFrom (index + 1) step others).failure <;> simp [failed, map]

/-! ### States that are handed on -/

section States

variable {σ : Type}

/-- An attempt on a state and a value makes of the value what another attempt does alone, and leaves
the state `after` if it succeeds. -/
structure Tracks (attempt : Attempt ρ ε (σ × α)) (alone : Attempt ρ ε α) (after : σ) : Prop where
  /-- Without the state it is the other attempt. -/
  map_snd : attempt.map (·.2) = alone
  /-- A success leaves the state told. -/
  fst_value : attempt.failure = none → attempt.value.1 = after

namespace Tracks

variable {attempt : Attempt ρ ε (σ × α)} {alone : Attempt ρ ε α} {after : σ}

/-- The two attempts fail alike. -/
theorem failure_eq (tracks : Tracks attempt alone after) : attempt.failure = alone.failure :=
  congrArg failure tracks.map_snd

/-- The two attempts make the same of the value. -/
theorem snd_value (tracks : Tracks attempt alone after) : attempt.value.2 = alone.value :=
  congrArg value tracks.map_snd

/-- A state is handed on as it is where nothing is changed. -/
theorem unchanged (state : σ) (value : α) :
    Tracks (Attempt.unchanged (state, value) : Attempt ρ ε (σ × α)) (.unchanged value) state :=
  ⟨rfl, fun _ => rfl⟩

/-- A state is handed on as it is by an attempt that is seen on a larger value beside it. -/
theorem map_pair (attempt : Attempt ρ ε α) (f : α → β) (state : σ) :
    Tracks (attempt.map fun value => (state, f value)) (attempt.map f) state :=
  ⟨rfl, fun _ => rfl⟩

/-- Both attempts may be seen on a value that contains the one changed. -/
theorem map (tracks : Tracks attempt alone after) (f : α → β) :
    Tracks (attempt.map fun pair => (pair.1, f pair.2)) (alone.map f) after := by
  -- The state is left alone by what becomes of the value.
  obtain rfl := tracks.map_snd
  exact ⟨rfl, tracks.fst_value⟩

/-- Attempts that follow are tracked if they are from the value and the state that are left. -/
theorem andThen {next : σ × α → Attempt ρ ε (σ × α)} {nextAlone : α → Attempt ρ ε α} {last : σ}
    (tracks : Tracks attempt alone after)
    (following : Tracks (next (after, alone.value)) (nextAlone alone.value) last) :
    Tracks (attempt.andThen next) (alone.andThen nextAlone) last := by
  obtain ⟨⟨state, value⟩, records, failure⟩ := attempt
  obtain rfl := tracks.map_snd
  cases failure with
  -- A failure ends both attempts, and no state is promised then.
  | some cause => exact ⟨rfl, nofun⟩
  | none =>
    -- What follows goes on from the state that the success has left.
    obtain rfl : state = after := tracks.fst_value rfl
    refine ⟨?_, following.fst_value⟩
    simp only [Attempt.andThen, ← following.map_snd]
    rfl

/-- A walk that hands a state on does to the items what a walk does alone, and advances the state
from item to item. -/
theorem forEachWith {step : Nat → σ → α → Attempt ρ ε (σ × α)} {other : Nat → α → Attempt ρ ε α}
    {advance : σ → α → σ}
    (each : ∀ index state item,
      Tracks (step index state item) (other index item) (advance state item))
    (state : σ) (items : List α) :
    Tracks (Attempt.forEachWith step state items) (forEach other items)
      (items.foldl advance state) := by
  -- The induction goes on behind the first item, from the state that is left there.
  suffices walk : ∀ index, Tracks (forEachWithFrom index step state items)
      (forEachFrom index other items) (items.foldl advance state) from walk 0
  induction items generalizing state with
  | nil =>
    intro index
    exact ⟨rfl, fun _ => rfl⟩
  | cons item rest ih =>
    intro index
    have first := each index state item
    have others := ih (advance state item) (index + 1)
    rw [forEachWithFrom, forEachFrom, first.failure_eq]
    cases failed : (other index item).failure with
    | some cause =>
      -- The walk ends here on both sides, and the rest of the list stays.
      refine ⟨?_, fun succeeded => ?_⟩
      · -- The item is left alike, with the rest behind it.
        rw [← first.map_snd]
        rfl
      · -- There is no success to speak of.
        exact absurd (first.failure_eq.symm.trans succeeded) (by simp [failed])
    | none =>
      have advanced : (step index state item).value.1 = advance state item :=
        first.fst_value (first.failure_eq.trans failed)
      simp only [advanced]
      -- The item and the others behind it are left alike.
      refine ⟨?_, others.fst_value⟩
      simp only [Attempt.map, first.snd_value, others.snd_value, others.failure_eq]
      rw [← first.map_snd, ← others.map_snd]
      rfl

end Tracks

end States

end SchemaUplift.Attempt
