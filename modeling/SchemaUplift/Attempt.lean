/-! Changes that may stop half-way: what was written up to the failure stays, and so does its
record. -/

namespace SchemaUplift

/-- An attempt at changing a value of type `α`: what has become of it, the records of the changes
made, oldest first, and the failure that ended the attempt early, if one did. -/
structure Attempt (ρ ε α : Type) where
  /-- The value with all changes made to it. -/
  value : α
  /-- The changes, in the order in which they were made. -/
  records : List ρ
  /-- Why the attempt ended early. -/
  failure : Option ε

namespace Attempt

variable {ρ ε α β : Type}

/-- The attempt that changes nothing. -/
def unchanged (value : α) : Attempt ρ ε α := ⟨value, [], none⟩

/-- The attempt that makes one change and records it. -/
def changed (value : α) (record : ρ) : Attempt ρ ε α := ⟨value, [record], none⟩

/-- The attempt that fails before any change. -/
def failed (value : α) (failure : ε) : Attempt ρ ε α := ⟨value, [], some failure⟩

/-- Goes on with what the attempt left, unless it failed. -/
def andThen (attempt : Attempt ρ ε α) (next : α → Attempt ρ ε α) : Attempt ρ ε α :=
  match attempt.failure with
  | some _ => attempt
  | none =>
    let rest := next attempt.value
    { rest with records := attempt.records ++ rest.records }

/-- The same attempt seen on a value that contains the one changed. -/
def map (f : α → β) (attempt : Attempt ρ ε α) : Attempt ρ ε β :=
  ⟨f attempt.value, attempt.records, attempt.failure⟩

/-- The same attempt with its records mapped. -/
def mapRecords {σ : Type} (f : ρ → σ) (attempt : Attempt ρ ε α) : Attempt σ ε α :=
  ⟨attempt.value, attempt.records.map f, attempt.failure⟩

/-- Takes the steps one after the other until one fails. -/
def inSequence : List (α → Attempt ρ ε α) → α → Attempt ρ ε α
  | [], value => unchanged value
  | step :: steps, value => (step value).andThen (inSequence steps)

/-- Takes a step on each item of a list, given its index, until one fails; indices start at
`index`. -/
def forEachFrom (index : Nat) (step : Nat → α → Attempt ρ ε α) :
    List α → Attempt ρ ε (List α)
  | [] => unchanged []
  | item :: rest =>
    let first := step index item
    match first.failure with
    | some _ => first.map (· :: rest)
    | none =>
      let others := forEachFrom (index + 1) step rest
      ⟨first.value :: others.value, first.records ++ others.records, others.failure⟩

/-- Takes a step on each item of a list, given its index, until one fails. -/
def forEach (step : Nat → α → Attempt ρ ε α) : List α → Attempt ρ ε (List α) :=
  forEachFrom 0 step

/-- Takes a step on each item of a list, given its index and a state that the steps hand on, until
one fails; indices start at `index`. -/
def forEachWithFrom {σ : Type} (index : Nat) (step : Nat → σ → α → Attempt ρ ε (σ × α))
    (state : σ) : List α → Attempt ρ ε (σ × List α)
  | [] => unchanged (state, [])
  | item :: rest =>
    let first := step index state item
    match first.failure with
    | some _ => first.map fun (state, item) => (state, item :: rest)
    | none =>
      let others := forEachWithFrom (index + 1) step first.value.1 rest
      ⟨(others.value.1, first.value.2 :: others.value.2), first.records ++ others.records,
        others.failure⟩

/-- Takes a step on each item of a list, given its index and a state that the steps hand on, until
one fails. -/
def forEachWith {σ : Type} (step : Nat → σ → α → Attempt ρ ε (σ × α)) :
    σ → List α → Attempt ρ ε (σ × List α) :=
  forEachWithFrom 0 step

/-- The outcome for a caller who asks only for success or failure. -/
def outcome (attempt : Attempt ρ ε α) (success : β) : Except ε β :=
  match attempt.failure with
  | some failure => .error failure
  | none => .ok success

end Attempt

end SchemaUplift
