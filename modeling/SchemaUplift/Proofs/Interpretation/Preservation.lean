import SchemaUplift.Proofs.Interpretation.Success

/-! Properties that steps keep where they succeed: a run keeps what each of its steps keeps. -/

namespace SchemaUplift

variable {ρ ε α : Type} {holds : α → Prop}

/-- Where the step succeeds on a value with a property, it leaves a value with that property. -/
def Keeps (holds : α → Prop) (step : α → Option α) : Prop :=
  ∀ ⦃value result⦄, holds value → step value = some result → holds result

namespace Keeps

/-- Steps in order keep what each of them keeps. -/
theorem inOrder {steps : List (α → Option α)} (each : ∀ step ∈ steps, Keeps holds step) :
    Keeps holds (inOrder steps) := by
  -- The induction hands the property on from step to step.
  induction steps with
  | nil =>
    rintro value result start ⟨⟩
    exact start
  | cons step rest ih =>
    obtain ⟨first, others⟩ := List.forall_mem_cons.1 each
    intro value result start success
    -- The other steps start from what the first one leaves.
    obtain ⟨middle, made, success⟩ := Option.bind_eq_some_iff.1 success
    exact ih others (first start made) success

/-- A step on every item of a list keeps for all what it keeps for one. -/
theorem mapM {step : α → Option α} (keeps : Keeps holds step) :
    Keeps (∀ item ∈ ·, holds item) fun items : List α => items.mapM step := by
  intro items results start success result member
  -- Each item that is left comes from one of which the property is known.
  obtain ⟨item, within, made⟩ := exists_of_mem_mapM success member
  exact keeps (start item within) made

/-- Attempts in sequence, one for each item of a list, keep what each of them keeps. -/
theorem inSequence {ι : Type} {step : ι → α → Attempt ρ ε α}
    (each : ∀ item, Keeps holds fun value => (step item value).success?) (items : List ι) :
    Keeps holds fun value => (Attempt.inSequence (items.map step) value).success? :=
  Attempt.inSequence_of_inOrder inOrder each items

/-- An attempt on every item of a list keeps for all what it keeps for one, wherever that
stands. -/
theorem forEach {step : Nat → α → Attempt ρ ε α}
    (each : ∀ index, Keeps holds fun item => (step index item).success?) :
    Keeps (∀ item ∈ ·, holds item) fun items => (Attempt.forEach step items).success? := by
  -- The induction goes along the list, so the index of its first item has to vary.
  suffices walk : ∀ index, Keeps (∀ item ∈ ·, holds item)
      fun items => (Attempt.forEachFrom index step items).success? from walk 0
  intro index items
  induction items generalizing index with
  | nil =>
    rintro results start ⟨⟩
    exact start
  | cons item rest ih =>
    intro results start success
    obtain ⟨first, others⟩ := List.forall_mem_cons.1 start
    -- The walk succeeds where the step does on the first item and the walk on the others.
    simp only [Attempt.success?_forEachFrom_cons, Option.bind_eq_some_iff,
      Option.map_eq_some_iff] at success
    obtain ⟨changed, made, changedRest, madeRest, rfl⟩ := success
    exact List.forall_mem_cons.2 ⟨each index first made, ih (index + 1) others madeRest⟩

end Keeps

end SchemaUplift
