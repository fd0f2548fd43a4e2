import SchemaUplift.Attempt

/-! Changes that succeed with a value or fail, with no record of what was done: what is left of
attempts for those who look at successes alone. -/

namespace SchemaUplift

variable {ρ ε α β : Type}

/-- Takes steps one after the other until one fails. -/
def inOrder : List (α → Option α) → α → Option α
  | [], value => some value
  | step :: steps, value => (step value).bind (inOrder steps)

/-- Steps in order are the first steps and then the others. -/
theorem inOrder_append (first last : List (α → Option α)) (value : α) :
    inOrder (first ++ last) value = (inOrder first value).bind (inOrder last) := by
  -- The induction moves the first step out of both sides.
  induction first generalizing value with
  | nil => rfl
  | cons step rest ih =>
    rw [List.cons_append, inOrder, inOrder, Option.bind_assoc]
    exact congrArg _ (funext ih)

/-- A single step in order is that step. -/
@[simp] theorem inOrder_singleton (step : α → Option α) : inOrder [step] = step :=
  funext fun value => Option.bind_fun_some (step value)

/-- Steps that change nothing may be left out. -/
theorem inOrder_map_filter {ι : Type} {step : ι → α → Option α} {test : ι → Bool} {items : List ι}
    (idle : ∀ item ∈ items, test item = false → step item = some) :
    inOrder ((items.filter test).map step) = inOrder (items.map step) := by
  -- A step that is left out would hand its value on as it is.
  induction items with
  | nil => rfl
  | cons item rest ih =>
    obtain ⟨first, others⟩ := List.forall_mem_cons.1 idle
    funext value
    cases needed : test item with
    -- The step is taken on both sides.
    | true => simp [needed, inOrder, ih others]
    -- The step that is left out hands the value on.
    | false => simp [needed, inOrder, ih others, first needed]

/-! ### Steps on every item of a list -/

/-- Two steps on every item may be taken one after the other on the whole list. -/
theorem mapM_bind (first last : α → Option α) (items : List α) :
    items.mapM (fun item => (first item).bind last) =
      (items.mapM first).bind fun items => items.mapM last := by
  induction items with
  -- The induction takes both steps on the first item.
  | nil => rfl
  | cons item rest ih =>
    rw [List.mapM_cons, List.mapM_cons, ih]
    -- A failure on the head or on the rest, by either step, fails both sides.
    cases first item with
    | none => rfl
    | some changed =>
      cases rest.mapM first with
      | none => cases second : last changed <;> simp [second]
      | some changedRest => simp [List.mapM_cons]

/-- A step that changes no item changes no list. -/
theorem mapM_some (items : List α) : items.mapM some = some items := by
  simpa using List.mapM_pure (m := Option) (f := id) (l := items)

/-- Each item that a step on a list leaves comes from an item of the list. -/
theorem exists_of_mem_mapM {f : α → Option β} {items : List α} {results : List β}
    (success : items.mapM f = some results) {result : β} (member : result ∈ results) :
    ∃ item ∈ items, f item = some result := by
  -- The results are made in the order of the items, so the induction follows both.
  induction items generalizing results with
  | nil =>
    cases success
    simp at member
  | cons item rest ih =>
    simp only [List.mapM_cons, Option.bind_eq_bind, Option.bind_eq_some_iff, Option.pure_def,
      Option.some.injEq] at success
    obtain ⟨first, made, others, madeOthers, rfl⟩ := success
    -- The item left is the first one, or one of those that the rest leaves.
    rcases List.mem_cons.1 member with rfl | later
    · -- It is the first one, made of the first item.
      exact ⟨item, by simp, made⟩
    · -- It is a later one, made of a later item.
      obtain ⟨source, within, same⟩ := ih madeOthers later
      exact ⟨source, by simp [within], same⟩

/-- Steps that every item takes in order may be taken in order by the whole list. -/
theorem mapM_inOrder (steps : List (α → Option α)) (items : List α) :
    items.mapM (inOrder steps) = inOrder (steps.map fun step items => items.mapM step) items := by
  -- The induction takes the first step on the whole list.
  induction steps generalizing items with
  | nil => exact mapM_some items
  | cons step rest ih =>
    rw [List.map_cons, inOrder]
    exact (mapM_bind step (inOrder rest) items).trans (congrArg _ (funext ih))

namespace Attempt

/-- The value that a successful attempt leaves. -/
def success? (attempt : Attempt ρ ε α) : Option α :=
  match attempt.failure with
  | some _ => none
  | none => some attempt.value

/-- An attempt that changes nothing succeeds. -/
@[simp] theorem success?_unchanged (value : α) :
    (unchanged value : Attempt ρ ε α).success? = some value := rfl

/-- An attempt that makes one change succeeds. -/
@[simp] theorem success?_changed (value : α) (record : ρ) :
    (changed value record : Attempt ρ ε α).success? = some value := rfl

/-- An attempt seen on a containing value succeeds as before. -/
@[simp] theorem success?_map (f : α → β) (attempt : Attempt ρ ε α) :
    (attempt.map f).success? = attempt.success?.map f := by
  obtain ⟨value, records, failure⟩ := attempt
  cases failure <;> rfl

/-- An attempt with its records mapped succeeds as before. -/
@[simp] theorem success?_mapRecords {σ : Type} (f : ρ → σ) (attempt : Attempt ρ ε α) :
    (attempt.mapRecords f).success? = attempt.success? := rfl

/-- Two attempts one after the other succeed as the second does after the first. -/
@[simp] theorem success?_andThen (attempt : Attempt ρ ε α) (next : α → Attempt ρ ε α) :
    (attempt.andThen next).success? = attempt.success?.bind fun value => (next value).success? := by
  -- The second attempt is made if the first one does not fail.
  obtain ⟨value, records, failure⟩ := attempt
  cases failure <;> rfl

/-- Steps in sequence succeed as their successes in order. -/
theorem success?_inSequence (steps : List (α → Attempt ρ ε α)) (value : α) :
    (inSequence steps value).success? =
      inOrder (steps.map fun step value => (step value).success?) value := by
  -- The first attempt hands its value to the others, if it has one.
  induction steps generalizing value with
  | nil => rfl
  | cons step rest ih => simp [inSequence, inOrder, ih]

/-- Attempts in sequence, one for each item of a list, succeed in a way that steps in order carry
over from each of them to the whole. -/
theorem inSequence_of_inOrder {ι : Type} {P : (α → Option α) → Prop}
    (run : ∀ {steps : List (α → Option α)}, (∀ step ∈ steps, P step) → P (inOrder steps))
    {step : ι → α → Attempt ρ ε α} (each : ∀ item, P fun value => (step item value).success?)
    (items : List ι) : P fun value => (inSequence (items.map step) value).success? := by
  -- The success of each attempt has the property.
  have steps : ∀ success ∈ items.map fun item value => (step item value).success?, P success := by
    simpa using fun item _ => each item
  -- The successes of the sequence are those of its attempts in order.
  simpa only [success?_inSequence, List.map_map, Function.comp_def] using run steps

/-- A walk over items succeeds if the step on the first one does and then the walk over the
others. -/
theorem success?_forEachFrom_cons (index : Nat) (step : Nat → α → Attempt ρ ε α) (item : α)
    (rest : List α) : (forEachFrom index step (item :: rest)).success? =
      (step index item).success?.bind fun first =>
        (forEachFrom (index + 1) step rest).success?.map (first :: ·) := by
  -- The step on the first item fails, or the others are looked at.
  rw [forEachFrom]
  generalize step index item = first
  obtain ⟨value, records, failure⟩ := first
  cases failure with
  -- The step fails, and so does the walk.
  | some cause => rfl
  | none =>
    -- The step has a value, and the walk over the others decides.
    generalize forEachFrom (index + 1) step rest = others
    obtain ⟨values, records', failure'⟩ := others
    cases failure' <;> rfl

/-- A step on each item succeeds if it does on every item, wherever the item stands. -/
theorem success?_forEachFrom {step : Nat → α → Attempt ρ ε α} {success : α → Option α}
    (each : ∀ index item, (step index item).success? = success item) (index : Nat)
    (items : List α) : (forEachFrom index step items).success? = items.mapM success := by
  -- The induction takes the step on the first item, at whatever index that stands.
  induction items generalizing index with
  | nil => rfl
  | cons item rest ih =>
    rw [success?_forEachFrom_cons, each, ih, List.mapM_cons]
    cases success item with
    | none => rfl
    | some first => cases rest.mapM success <;> rfl

/-- A step on each item succeeds if it does on every item. -/
theorem success?_forEach {step : Nat → α → Attempt ρ ε α} {success : α → Option α}
    (each : ∀ index item, (step index item).success? = success item) (items : List α) :
    (forEach step items).success? = items.mapM success :=
  success?_forEachFrom each 0 items

end Attempt

end SchemaUplift
