import SchemaUplift.Proofs.Attempt
import SchemaUplift.Proofs.Schema.Versions

/-! Conversion by way of a version in the middle: up to it with the schema cut down to it, and from
there with the whole schema. -/

namespace SchemaUplift

/-! ### Lists without items -/

/-- A pass of span rules has nothing to do on no spans. -/
theorem SpanPass.convert_nil (pass : SpanPass) : pass.convert [] = .unchanged [] := rfl

/-- A stage has nothing to do on no metrics. -/
theorem MetricStage.convert_nil (stage : MetricStage) : stage.convert [] = .unchanged [] := by
  cases stage <;> rfl

/-- A plan has nothing to do on no metrics. -/
theorem MetricPlan.convert_nil (plan : MetricPlan) : plan.convert [] = .unchanged [] := by
  obtain ⟨stages⟩ := plan
  -- Each stage leaves the empty list to the next.
  induction stages with
  | nil => rfl
  | cons stage rest ih =>
    have first : (MetricPlan.mk (stage :: rest)).convert [] =
        (stage.convert []).andThen (MetricPlan.mk rest).convert := rfl
    rw [first, MetricStage.convert_nil, Attempt.unchanged_andThen, ih]

/-- A step has nothing to do on no log records. -/
theorem VersionStep.convertLogs_nil (step : VersionStep) :
    step.convertLogs [] = .unchanged [] := rfl

namespace Schema

variable {α : Type}

/-- If no pass does anything on the empty list, that list needs no case of its own. -/
theorem convertList_eq_inSequence {passes : List (List α → Conversion (List α))}
    (idle : ∀ pass ∈ passes, pass [] = .unchanged []) :
    convertList passes = Attempt.inSequence passes := by
  funext items
  -- A list with items takes all passes anyway, so that the empty one is left to show.
  cases items with
  | cons item rest => rfl
  | nil =>
    show Attempt.unchanged [] = Attempt.inSequence passes []
    -- The induction goes past the first pass.
    induction passes with
    | nil => rfl
    | cons pass rest ih =>
      obtain ⟨first, others⟩ := List.forall_mem_cons.1 idle
      rw [Attempt.inSequence, first, Attempt.unchanged_andThen, ih others]

/-- Spans take the pass of each pending step. -/
theorem convertSpans_eq (schema : Schema) (start : Version) :
    schema.convertSpans start =
      Attempt.inSequence ((schema.pending start).map (·.spans.convert)) :=
  convertList_eq_inSequence <| List.forall_mem_map.2 fun step _ => step.spans.convert_nil

/-- Metrics take the plan of each pending step. -/
theorem convertMetrics_eq (schema : Schema) (start : Version) :
    schema.convertMetrics start =
      Attempt.inSequence ((schema.pending start).map (·.metrics.convert)) :=
  convertList_eq_inSequence <| List.forall_mem_map.2 fun step _ => step.metrics.convert_nil

/-- Log records take the tables of each pending step. -/
theorem convertLogs_eq (schema : Schema) (start : Version) :
    schema.convertLogs start =
      Attempt.inSequence ((schema.pending start).map VersionStep.convertLogs) :=
  convertList_eq_inSequence <| List.forall_mem_map.2 fun step _ => step.convertLogs_nil

/-! ### By way of a version -/

/-- One pass for each pending step, of whatever kind, may be interrupted at a version in the
middle. -/
theorem inSequence_pending_upTo (schema : Schema) {start middle : Version}
    (before : start ≤ middle) (pass : VersionStep → α → Conversion α) (begun : Conversion α) :
    (begun.andThen (Attempt.inSequence (((schema.upTo middle).pending start).map pass))).andThen
        (Attempt.inSequence ((schema.pending middle).map pass)) =
      begun.andThen (Attempt.inSequence ((schema.pending start).map pass)) := by
  -- The steps up to the version in the middle and those behind it are the pending steps in order.
  rw [← schema.pending_upTo_append before, List.map_append, Attempt.andThen_assoc]
  exact congrArg _ (funext fun value => (Attempt.inSequence_append _ _ value).symm)

/-- A schema made from a file has one step for each declared version, in strictly ascending order,
and data takes the steps to newer versions. A file cut down to a version makes a schema that leads
there, and the whole schema goes on from there as if there had been no halt: with the same values,
records and failures, whatever was `begun` before. -/
theorem convert_by_way_of {file : SchemaFile} {schema : Schema}
    (made : ofFile file = .ok schema) :
    schema.versions.Pairwise (fun a b => a.version < b.version) ∧
    (∀ entry ∈ file.versions, ∃ version, Version.read entry.1 = .ok version ∧
      ∃! step, step ∈ schema.versions ∧ step.version == version) ∧
    (∀ step ∈ schema.versions, ∃ entry ∈ file.versions,
      Version.read entry.1 = .ok step.version) ∧
    (∀ start, schema.pending start = schema.versions.filter fun step => start < step.version) ∧
    ∀ middle, ∃ cut, ofFile (file.upTo middle) = .ok cut ∧
      cut.versions = schema.versions.filter (fun step => step.version ≤ middle) ∧
      ∀ start, start ≤ middle →
        (∀ begun : Conversion Resource,
          (begun.andThen (cut.convertResource start)).andThen (schema.convertResource middle) =
            begun.andThen (schema.convertResource start)) ∧
        (∀ begun : Conversion (List Span),
          (begun.andThen (cut.convertSpans start)).andThen (schema.convertSpans middle) =
            begun.andThen (schema.convertSpans start)) ∧
        (∀ begun : Conversion (List Metric),
          (begun.andThen (cut.convertMetrics start)).andThen (schema.convertMetrics middle) =
            begun.andThen (schema.convertMetrics start)) ∧
        ∀ begun : Conversion (List LogRecord),
          (begun.andThen (cut.convertLogs start)).andThen (schema.convertLogs middle) =
            begun.andThen (schema.convertLogs start) := by
  -- The five facts are known apart, and what is left is the whole schema cut at a version.
  refine ⟨pairwise_of_ofFile made, exists_unique_of_ofFile made, declared_of_ofFile made,
    schema.pending_eq_filter, fun middle => ⟨schema.upTo middle, ofFile_upTo made middle,
      ?_, fun start before => ?_⟩⟩
  · -- The steps that are kept are those up to the version in the middle.
    exact List.filter_congr fun step _ => by simp [← Version.atMost_iff]
  · -- Each kind of telemetry takes one pass for each pending step, and all passes may be cut.
    simp only [convertSpans_eq, convertMetrics_eq, convertLogs_eq]
    exact ⟨schema.inSequence_pending_upTo before _, schema.inSequence_pending_upTo before _,
      schema.inSequence_pending_upTo before _, schema.inSequence_pending_upTo before _⟩

/-- A file that declares version 1.0 twice, in different spellings, and after version 1.1. -/
def respelled : SchemaFile :=
  ⟨"1.0.0", "https://opentelemetry.io/schemas/1.1.0",
    [("1.1.0", { VersionDefinition.empty with all := [some (.ofList [("host", "host.name")])] }),
      ("1.0", { VersionDefinition.empty with resources := [some (.ofList [("h", "host")])] }),
      ("1.0.0", { VersionDefinition.empty with logs := [some (.ofList [("m", "message")])] })]⟩

/-- A halt at version 1.0.5, which is not declared, makes no difference to data at version 1. -/
theorem convert_by_way_of_undeclared : ∃ schema cut, ofFile respelled = .ok schema ∧
    ofFile (respelled.upTo ⟨[1, 0, 5], "1.0.5"⟩) = .ok cut ∧
      ∀ begun : Conversion (List LogRecord),
        (begun.andThen (cut.convertLogs ⟨[1], "1"⟩)).andThen
          (schema.convertLogs ⟨[1, 0, 5], "1.0.5"⟩) =
            begun.andThen (schema.convertLogs ⟨[1], "1"⟩) := by
  obtain ⟨schema, made⟩ : ∃ schema, ofFile respelled = .ok schema :=
    Except.exists_of_isOk (by decide +kernel)
  -- The theorem gives a halt at any version, and this one is above the start.
  obtain ⟨-, -, -, -, halts⟩ := convert_by_way_of made
  obtain ⟨cut, cutMade, -, same⟩ := halts ⟨[1, 0, 5], "1.0.5"⟩
  exact ⟨schema, cut, made, cutMade, (same ⟨[1], "1"⟩ (by decide)).2.2.2⟩

end Schema

end SchemaUplift
