import Mathlib.Data.List.Perm.Basic

/-! When computations that may fail succeed, and why they fail. -/

namespace SchemaUplift.Except

variable {ε α β : Type}

/-- A result that is no failure is a success. -/
theorem exists_of_isOk {result : Except ε α} (success : result.isOk = true) :
    ∃ value, result = .ok value := by
  -- Of the two results one is a success, and the other does not pass the test.
  cases result with
  | ok value => exact ⟨value, rfl⟩
  | error cause => exact absurd success (by simp [Except.isOk, Except.toBool])

/-- A computation that goes on after a first one succeeds only if both do. -/
theorem exists_of_bind_eq_ok {first : Except ε α} {next : α → Except ε β} {result : β}
    (success : first >>= next = .ok result) :
    ∃ value, first = .ok value ∧ next value = .ok result := by
  -- A failure of the first computation would be that of both.
  cases first with
  | ok value => exact ⟨value, rfl, success⟩
  | error cause => simp [Bind.bind, Except.bind] at success

/-- A mapped result is a success exactly if the result is, with the value mapped. -/
theorem map_eq_ok_iff {result : Except ε α} {g : α → β} {image : β} :
    result.map g = .ok image ↔ ∃ value, result = .ok value ∧ g value = image := by
  cases result <;> simp [Except.map]

/-- A mapped result is a failure exactly if the result is the same failure. -/
theorem map_eq_error_iff {result : Except ε α} {g : α → β} {cause : ε} :
    result.map g = .error cause ↔ result = .error cause := by
  cases result <;> simp [Except.map]

/-- What is left when the cause of a failure is forgotten is the value of a success. -/
theorem toOption_eq_some_iff {result : Except ε α} {value : α} :
    result.toOption = some value ↔ result = .ok value := by
  cases result <;> simp [Except.toOption]

variable {f : α → Except ε β}

/-- A traversal succeeds exactly with the results of the items in order. -/
theorem mapM_eq_ok_iff {items : List α} {results : List β} :
    items.mapM f = .ok results ↔ List.Forall₂ (fun item result => f item = .ok result) items
      results := by
  -- The traversal takes the first item and then the others.
  induction items generalizing results with
  | nil => cases results <;> simp [Pure.pure, Except.pure]
  | cons item rest ih =>
    rw [List.mapM_cons]
    -- A failure of the first item is that of the traversal.
    cases first : f item with
    | error cause => cases results <;> simp [Bind.bind, Except.bind, first]
    | ok result =>
      -- The first item succeeds, so that the others decide.
      cases others : rest.mapM f <;> cases results <;>
        simp [Bind.bind, Except.bind, Pure.pure, Except.pure, first, others, ← ih]

/-- A traversal that succeeds does so in every order of the items. -/
theorem exists_mapM_of_perm {items others : List α} {results : List β}
    (success : items.mapM f = .ok results) (same : others.Perm items) :
    ∃ results', others.mapM f = .ok results' := by
  -- The results may be brought into the order that the items are in.
  obtain ⟨results', paired, -⟩ := List.perm_comp_forall₂ same (mapM_eq_ok_iff.1 success)
  exact ⟨results', mapM_eq_ok_iff.2 paired⟩

/-! ### Causes of failure -/

/-- Why a computation failed, if it did. -/
def failure? : Except ε α → Option ε
  | .ok _ => none
  | .error cause => some cause

/-- A computation failed for a cause exactly if that is its result. -/
theorem failure?_eq_some_iff {result : Except ε α} {cause : ε} :
    failure? result = some cause ↔ result = .error cause := by
  cases result <;> simp [failure?]

/-- A computation did not fail exactly if it has a value. -/
theorem failure?_eq_none_iff {result : Except ε α} :
    failure? result = none ↔ ∃ value, result = .ok value := by
  cases result <;> simp [failure?]

/-- A computation that goes on after a check fails as the check does, or else as what follows. -/
theorem failure?_bind_unit (check : Except ε Unit) (next : Except ε α) :
    failure? (check >>= fun _ => next) = (failure? check).or (failure? next) := by
  cases check <;> rfl

/-- Using a value in a way that cannot fail adds no failure. -/
theorem failure?_bind_pure (result : Except ε α) (use : α → β) :
    failure? (result >>= fun value => pure (use value)) = failure? result := by
  cases result <;> rfl

/-- A traversal fails as the first item that fails. -/
theorem failure?_mapM (items : List α) :
    failure? (items.mapM f) = items.findSome? fun item => failure? (f item) := by
  -- The induction goes along the items, as the traversal does.
  induction items with
  | nil => rfl
  | cons item rest ih =>
    rw [List.mapM_cons, List.findSome?_cons, ← ih]
    -- The others are looked at only if the first item does not fail.
    cases f item with
    | error cause => rfl
    | ok value => exact failure?_bind_pure (rest.mapM f) (value :: ·)

end SchemaUplift.Except
