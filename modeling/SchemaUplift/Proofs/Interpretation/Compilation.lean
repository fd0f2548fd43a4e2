import SchemaUplift.Proofs.Interpretation.Stages
import SchemaUplift.Proofs.Schema.Path

/-! A schema made from a file does to all telemetry what the file says. -/

namespace SchemaUplift.Schema

/-- The pending steps lead to the newer versions. -/
theorem newerVersions_eq {file : SchemaFile} {schema : Schema} (made : ofFile file = .ok schema)
    (start : Version) : file.newerVersions start = (schema.pending start).map (·.version) := by
  -- Both lists keep what is newer: the versions of all steps, and the steps by their versions.
  obtain ⟨-, versions, -⟩ := ofFile_eq_ok_iff.1 made
  rw [SchemaFile.newerVersions, ← versions, List.filter_map, pending_eq_filter]
  rfl

/-- A pending step is made from the definitions of its version. -/
theorem ofDefinitions_of_mem_pending {file : SchemaFile} {schema : Schema}
    (made : ofFile file = .ok schema) {start : Version} {step : VersionStep}
    (member : step ∈ schema.pending start) :
    VersionStep.ofDefinitions step.version (file.definitions step.version) = .ok step := by
  -- Each step of the schema is made from its definitions, and the pending ones are among them.
  obtain ⟨-, -, each, -⟩ := ofFile_eq_ok_iff.1 made
  rw [pending_eq_filter] at member
  exact each step (List.mem_of_mem_filter member)

/-- If the pass of each step does what the definitions of its version mean, the passes of the
pending steps do what the newer versions mean, one version after the other. -/
theorem success?_inSequence_pending {α : Type} {file : SchemaFile} {schema : Schema}
    (made : ofFile file = .ok schema) {pass : VersionStep → α → Conversion α}
    {meaning : List VersionDefinition → α → Option α}
    (agree : ∀ {version definitions step},
      VersionStep.ofDefinitions version definitions = .ok step →
        ∀ value, (pass step value).success? = meaning definitions value)
    (start : Version) (value : α) :
    (Attempt.inSequence ((schema.pending start).map pass) value).success? =
      inOrder ((file.newerVersions start).map fun version => meaning (file.definitions version))
        value := by
  -- The pending steps lead to the newer versions, and each is made from its definitions.
  rw [Attempt.success?_inSequence, newerVersions_eq made, List.map_map, List.map_map]
  exact congrArg (inOrder · value) (List.map_congr_left fun step member =>
    funext (agree (ofDefinitions_of_mem_pending made member)))

/-- A schema made from a file converts data successfully exactly if the changes that the file lists,
taken one at a time on all entities, succeed, and then both leave the same entities. -/
theorem success?_convert_eq_interpret {file : SchemaFile} {schema : Schema}
    (made : ofFile file = .ok schema) (start : Version) :
    (∀ resource, (schema.convertResource start resource).success? =
      file.interpretResource start resource) ∧
    (∀ spans, (schema.convertSpans start spans).success? = file.interpretSpans start spans) ∧
    (∀ metrics, (schema.convertMetrics start metrics).success? =
      file.interpretMetrics start metrics) ∧
    ∀ records, (schema.convertLogs start records).success? = file.interpretLogs start records := by
  -- Each of the four kinds of telemetry takes one pass for each pending step.
  rw [convertSpans_eq, convertMetrics_eq, convertLogs_eq]
  exact ⟨success?_inSequence_pending made VersionStep.success?_convertResource start,
    success?_inSequence_pending made VersionStep.success?_convertSpans start,
    success?_inSequence_pending made VersionStep.success?_convertMetrics start,
    success?_inSequence_pending made VersionStep.success?_convertLogs start⟩

/-- A file whose only version renames a metric twice, splits it, and turns one part into delta
sums. -/
def reshaped : SchemaFile :=
  ⟨"1.0.0", "https://opentelemetry.io/schemas/1.1.0",
    [("1.1.0", { VersionDefinition.empty with
      all := [some (.ofList [("dir", "direction")])]
      metrics := [
        ⟨.ofList [("net.io", "network.io")], some ⟨["network.io"], .ofList [("dev", "device")]⟩,
          none, none, []⟩,
        ⟨.ofList [("network.io", "io")], none,
          some ⟨"io", "direction", .ofList [("io.in", "in"), ("io.out", "out")]⟩, none,
          ["io.in"]⟩] })]⟩

/-- A metric that all changes of the file concern. -/
def traffic : Metric :=
  ⟨"net.io", "", "By", [], some (.numbers (.sum .cumulative true)
    [⟨[⟨"dir", .string "in"⟩, ⟨"dev", .string "eth0"⟩], 0, 1, 0, some (.int 5)⟩,
      ⟨[⟨"dir", .string "out"⟩, ⟨"dev", .string "eth0"⟩], 0, 1, 0, some (.int 7)⟩])⟩

/-- The metric meets rules and the split under the names that it has by then. -/
theorem success?_convert_eq_interpret_reshaped : ∃ schema, ofFile reshaped = .ok schema ∧
    (schema.convertMetrics .zero [traffic]).success? =
      reshaped.interpretMetrics .zero [traffic] := by
  -- The file is accepted, which evaluation shows.
  obtain ⟨schema, made⟩ : ∃ schema, ofFile reshaped = .ok schema :=
    Except.exists_of_isOk (by decide +kernel)
  exact ⟨schema, made, (success?_convert_eq_interpret made .zero).2.2.1 [traffic]⟩

end SchemaUplift.Schema
