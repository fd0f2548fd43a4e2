import SchemaUplift.Proofs.Schema.Declarations
import SchemaUplift.Proofs.Schema.Pruning

/-! Why a declared schema is refused: for its first misspelled version, or else for the first name
that a split or a merge leaves out. Other schemas are all made ready for use. -/

namespace SchemaUplift

/-! ### Required names -/

/-- A name that a change must give, and what it gives. -/
structure Requirement where
  /-- Which name it is. -/
  name : RequiredName
  /-- The text that stands for it, empty if it is left out. -/
  given : String

namespace Requirement

/-- The names that a split must give. -/
def ofSplit (split : SplitDeclaration) : List Requirement :=
  [⟨.splitMetric, split.applyToMetric⟩, ⟨.splitAttribute, split.byAttribute⟩]

/-- The names that a merge must give. -/
def ofMerge (merge : MergeDeclaration) : List Requirement :=
  [⟨.mergeMetric, merge.createMetric⟩, ⟨.mergeAttribute, merge.byAttribute⟩]

/-- The names that a change to metrics must give: those of its split come first. -/
def ofChange (change : MetricChange) : List Requirement :=
  change.split.toList.flatMap ofSplit ++ change.merge.toList.flatMap ofMerge

/-- A change gives all its names exactly if its split does and its merge does. -/
theorem forall_mem_ofChange_iff {change : MetricChange} :
    (∀ requirement ∈ ofChange change, requirement.given ≠ "") ↔
      (∀ split, change.split = some split → split.applyToMetric ≠ "" ∧ split.byAttribute ≠ "") ∧
      ∀ merge, change.merge = some merge → merge.createMetric ≠ "" ∧ merge.byAttribute ≠ "" := by
  -- Each of the two is declared or not, and the names are those of what is declared.
  obtain ⟨names, attributes, division, union, deltas⟩ := change
  cases division <;> cases union <;> simp [ofChange, ofSplit, ofMerge, and_assoc]

/-- The names that the definitions of one version must give, in the order of their changes. -/
def ofDefinitions (definitions : List VersionDefinition) : List Requirement :=
  definitions.flatMap fun definition => definition.metrics.flatMap ofChange

/-- The error for the first name that is left out in a version, if one is. -/
def omission? (version : Version) (requirements : List Requirement) : Option SchemaError :=
  (requirements.find? (·.given.isEmpty)).map (.incompleteChange version.text ·.name)

/-- Of names in a row the first ones are looked at first. -/
theorem omission?_append (version : Version) (first others : List Requirement) :
    omission? version (first ++ others) =
      (omission? version first).or (omission? version others) := by
  -- Either no name of the first ones is left out, or the first such name is found there.
  rw [omission?, List.find?_append, Option.map_or]
  rfl

end Requirement

open Requirement

/-! ### Stages -/

namespace MetricPart

/-- The names that a part of a change must give. -/
def requirements : MetricPart → List Requirement
  | .single _ => []
  | .split declaration => ofSplit declaration
  | .merge declaration => ofMerge declaration

/-- A name is refused exactly if it is left out. -/
theorem failure?_require (version : Version) (name : RequiredName) (given : String) :
    Except.failure? (require version name given) = omission? version [⟨name, given⟩] := by
  rw [require, omission?, List.find?_singleton]
  -- A name is given or not, and the error has the name.
  split <;> simp_all <;> rfl

/-- Two names are looked at, and then what follows them. -/
theorem failure?_require_require {α : Type} (version : Version) (first second : RequiredName)
    (given other : String) (next : Except SchemaError α) :
    Except.failure? (do require version first given; require version second other; next) =
      (omission? version [⟨first, given⟩, ⟨second, other⟩]).or (Except.failure? next) := by
  -- The first name is looked at before the second one, and both before what follows.
  rw [Except.failure?_bind_unit, Except.failure?_bind_unit, failure?_require, failure?_require,
    ← Option.or_assoc, ← omission?_append]
  rfl

/-- Parts are put into stages unless a name is left out in one of them: the first one is reported,
whatever the rules collected so far and however empty the table of the part. -/
theorem failure?_stages (version : Version) (rules : List MetricRule) (parts : List MetricPart) :
    Except.failure? (stages version rules parts) =
      omission? version (parts.flatMap requirements) := by
  -- The induction is on the parts, each of which goes on with rules of its own.
  induction parts generalizing rules with
  | nil => rfl
  | cons part rest ih =>
    -- The names of the first part are looked at first.
    rw [List.flatMap_cons, omission?_append]
    cases part with
    -- A rule for single metrics has no names to give, and may be collected or dropped.
    | single rule =>
      cases rule with
      | renameAttributes metrics table =>
        rw [stages]
        split <;> rw [ih] <;> rfl
      | rename names => exact ih _
      | toDelta metrics => exact ih _
    -- A split is looked at for two names before its table.
    | split declaration =>
      rw [stages, requirements, ofSplit]
      refine (failure?_require_require version _ _ _ _ _).trans ?_
      congr 1
      -- An empty table makes no stage, but its names were looked at before.
      split
      · exact ih rules
      · exact (Except.failure?_bind_pure _ _).trans (ih [])
    -- A merge is looked at in the same way.
    | merge declaration =>
      rw [stages, requirements, ofMerge]
      refine (failure?_require_require version _ _ _ _ _).trans ?_
      congr 1
      split
      · exact ih rules
      · exact (Except.failure?_bind_pure _ _).trans (ih [])

/-- Pruning takes no part away and no name from any. -/
theorem flatMap_requirements_keepLast (parts : List MetricPart) :
    (Prunable.keepLast parts).flatMap requirements = parts.flatMap requirements := by
  induction parts with
  | nil => rfl
  -- Each part is pruned on its own.
  | cons part rest ih =>
    rw [Prunable.keepLast_cons, List.flatMap_cons, List.flatMap_cons, ih]
    congr 1
    -- Only a rule for single metrics is changed, and it has no names to give.
    cases part with
    | single rule => split <;> rfl
    | split declaration => rfl
    | merge declaration => rfl

/-- The parts of a change must give the names that the change must give. -/
theorem flatMap_requirements_ofChange (change : MetricChange) :
    (ofChange change).flatMap requirements = Requirement.ofChange change := by
  obtain ⟨names, attributes, division, union, deltas⟩ := change
  -- The parts of the other fields are rules for single metrics, and have no names to give.
  have rename : (if names.isEmpty then [] else
      [MetricPart.single (.rename names)]).flatMap requirements = [] := by split <;> rfl
  have toDelta : (if deltas.isEmpty then [] else
      [MetricPart.single (.toDelta (.ofNames deltas))]).flatMap requirements = [] := by
    split <;> rfl
  simp only [ofChange, List.flatMap_append, rename, toDelta]
  -- What is left is the split and the merge, each of them declared or not.
  cases attributes <;> cases division <;> cases union <;> rfl

/-- The parts of the definitions of a version must give the names that the definitions must give. -/
theorem flatMap_requirements_ofDefinitions (definitions : List VersionDefinition) :
    (ofDefinitions definitions).flatMap requirements =
      Requirement.ofDefinitions definitions := by
  -- Renames for all telemetry come first and have no names to give.
  have tables : ∀ tables : List RenameTable, (tables.map fun table =>
      (MetricPart.single (.renameAttributes ∅ table))).flatMap requirements = [] := by
    -- A table for all telemetry is a rule for single metrics.
    simp [requirements]
  rw [ofDefinitions, List.flatMap_append, tables, List.nil_append, Requirement.ofDefinitions,
    List.flatMap_assoc]
  simp only [List.flatMap_assoc, flatMap_requirements_ofChange]

end MetricPart

/-- The step of a version is made unless its definitions leave a name out. -/
theorem VersionStep.failure?_ofDefinitions (version : Version)
    (definitions : List VersionDefinition) :
    Except.failure? (ofDefinitions version definitions) =
      omission? version (Requirement.ofDefinitions definitions) := by
  -- The changes to metrics are the only part that can fail.
  rw [ofDefinitions]
  refine (Except.failure?_bind_pure _ _).trans ?_
  rw [MetricPart.failure?_stages, MetricPart.flatMap_requirements_keepLast,
    MetricPart.flatMap_requirements_ofDefinitions]

/-! ### Whole files -/

namespace SchemaFile

/-- A misspelled version is reported with its text and with what is wrong with it. -/
def misspelling? (entry : String × VersionDefinition) : Option SchemaError :=
  (Except.failure? (Version.read entry.1)).map (.invalidVersion entry.1)

/-- The first misspelled version is reported. -/
theorem failure?_readVersions (versions : List (String × VersionDefinition)) :
    Except.failure? (readVersions versions) = versions.findSome? misspelling? := by
  induction versions with
  | nil => rfl
  | cons entry rest ih =>
    -- The first version is read before the others.
    rw [readVersions, List.findSome?_cons, misspelling?]
    cases Version.read entry.1 with
    -- It is misspelled, and is reported.
    | error cause => rfl
    -- It is read, and the others go on.
    | ok version => exact (Except.failure?_bind_pure _ _).trans ih

/-- The versions that a file declares, each at its first spelling, in the order of their first
declarations. -/
def declaredVersions (file : SchemaFile) : List Version :=
  ((wellSpelled file.versions).map (·.1)).eraseDups

/-- A declared version has the text that spells it first. -/
theorem firstSpelling?_of_mem {file : SchemaFile} {version : Version}
    (member : version ∈ file.declaredVersions) :
    file.firstSpelling? version = some version.text := by
  have distinct : version ∈ file.distinctVersions := List.mem_mergeSort.2 member
  obtain ⟨entry, first, read⟩ := mem_distinctVersions_iff.1 distinct
  rw [firstSpelling?, first, Option.map_some, (Version.read_eq_ok_iff.1 read).2]

/-- The names that the changes of a file must give: version by version as they are first declared,
and for each version in the order of its changes. -/
def requirements (file : SchemaFile) : List (Version × Requirement) :=
  file.declaredVersions.flatMap fun version =>
    (Requirement.ofDefinitions (file.definitions version)).map (version, ·)

/-- The error for the first name that is left out in a file, if one is. -/
def omission? (file : SchemaFile) : Option SchemaError :=
  (file.requirements.find? (·.2.given.isEmpty)).map
    fun requirement => .incompleteChange requirement.1.text requirement.2.name

/-- The first name that is left out in a file is the first one in a version. -/
theorem omission?_eq (file : SchemaFile) :
    file.omission? = file.declaredVersions.findSome? fun version =>
      Requirement.omission? version (Requirement.ofDefinitions (file.definitions version)) := by
  -- Versions are looked at one after the other, and their names in order.
  rw [omission?, requirements, List.find?_flatMap, List.map_findSome?]
  congr 1
  funext version
  simp only [Function.comp_apply, List.find?_map, Option.map_map, Requirement.omission?]
  rfl

/-- Names that are left out are reported as such. -/
theorem exists_of_omission? {file : SchemaFile} {error : SchemaError}
    (found : file.omission? = some error) :
    ∃ spelling name, error = .incompleteChange spelling name := by
  obtain ⟨requirement, -, rfl⟩ := Option.map_eq_some_iff.1 found
  exact ⟨_, _, rfl⟩

/-- A name is reported as left out exactly if it is the first one, and with the first spelling of
its version. -/
theorem omission?_eq_some_iff {file : SchemaFile} {spelling : String} {name : RequiredName} :
    file.omission? = some (.incompleteChange spelling name) ↔
      ∃ before version after, file.requirements = before ++ (version, ⟨name, ""⟩) :: after ∧
        (∀ earlier ∈ before, earlier.2.given ≠ "") ∧
        file.firstSpelling? version = some spelling := by
  -- Names are required in declared versions alone.
  have declared (version : Version) (requirement : Requirement)
      (member : (version, requirement) ∈ file.requirements) :
      file.firstSpelling? version = some version.text := by
    obtain ⟨_, listed, required⟩ := List.mem_flatMap.1 member
    obtain ⟨_, -, ⟨⟩⟩ := List.mem_map.1 required
    exact firstSpelling?_of_mem listed
  simp only [omission?, Option.map_eq_some_iff, List.find?_eq_some_iff_append,
    SchemaError.incompleteChange.injEq, String.isEmpty_iff, Bool.not_eq_eq_eq_not, Bool.not_true,
    ← Bool.not_eq_true]
  constructor
  · -- The first name left out is found, so that its version is declared.
    rintro ⟨⟨version, ⟨name, given⟩⟩, ⟨rfl, before, after, whole, earlier⟩, rfl, rfl⟩
    have text := declared version ⟨name, ""⟩ (by simp [whole])
    exact ⟨before, version, after, whole, earlier, text⟩
  · -- The version is declared, and its first spelling is the one reported.
    rintro ⟨before, version, after, whole, earlier, spelled⟩
    refine ⟨_, ⟨rfl, before, after, whole, earlier⟩, ?_, rfl⟩
    have text := declared version ⟨name, ""⟩ (by simp [whole])
    exact Option.some.inj (text.symm.trans spelled)

/-- Every split and every merge that a file declares gives its metric and its attribute. -/
def IsComplete (file : SchemaFile) : Prop :=
  ∀ entry ∈ file.versions, ∀ change ∈ entry.2.metrics,
    (∀ split, change.split = some split → split.applyToMetric ≠ "" ∧ split.byAttribute ≠ "") ∧
    ∀ merge, change.merge = some merge → merge.createMetric ≠ "" ∧ merge.byAttribute ≠ ""

/-- What a file must give is what its changes must give, if all versions are well spelled. -/
theorem exists_mem_requirements_iff {file : SchemaFile} (spelled : file.IsWellSpelled)
    {requirement : Requirement} :
    (∃ version, (version, requirement) ∈ file.requirements) ↔
      ∃ entry ∈ file.versions, ∃ change ∈ entry.2.metrics,
        requirement ∈ Requirement.ofChange change := by
  -- Names are those of the definitions of some declared version.
  simp only [requirements, Requirement.ofDefinitions, definitions_eq, List.mem_flatMap,
    List.mem_map, List.mem_filter]
  constructor
  · -- A definition of the version belongs to an entry of the file.
    rintro ⟨version, _, -, _, ⟨_, ⟨entry, ⟨member, -⟩, rfl⟩, change, declared, required⟩, ⟨⟩⟩
    exact ⟨entry, member, change, declared, required⟩
  · rintro ⟨entry, member, change, declared, required⟩
    -- The version of the entry is declared under its first spelling.
    obtain ⟨version, read⟩ := spelled entry member
    obtain ⟨kept, keptMember, same⟩ := exists_mem_distinctVersions member read
    have declares : declares kept entry = true := by
      simpa [SchemaFile.declares, read, Except.toOption] using BEq.symm same
    exact ⟨kept, kept, List.mem_mergeSort.1 keptMember, requirement,
      ⟨_, ⟨entry, ⟨member, declares⟩, rfl⟩, change, declared, required⟩, rfl⟩

/-- A file whose versions are well spelled leaves no name out exactly if it is complete. -/
theorem omission?_eq_none_iff {file : SchemaFile} (spelled : file.IsWellSpelled) :
    file.omission? = none ↔ file.IsComplete := by
  have given : file.omission? = none ↔
      ∀ requirement, (∃ version, (version, requirement) ∈ file.requirements) →
        requirement.given ≠ "" := by
    -- No name is found to be left out.
    simp only [omission?, Option.map_eq_none_iff, List.find?_eq_none, String.isEmpty_iff]
    exact ⟨fun all requirement ⟨version, member⟩ => all _ member,
      fun all requirement member => all _ ⟨_, member⟩⟩
  -- Names that are required of a file are those that some change of it must give.
  rw [given]
  simp only [exists_mem_requirements_iff spelled, IsComplete,
    ← Requirement.forall_mem_ofChange_iff]
  constructor
  · intro all entry member change declared requirement required
    exact all requirement ⟨entry, member, change, declared, required⟩
  · rintro all requirement ⟨entry, member, change, declared, required⟩
    exact all entry member change declared requirement required

end SchemaFile

namespace Schema

/-- A file is refused for its first misspelled version, or else for the first name left out. -/
theorem failure?_ofFile (file : SchemaFile) : Except.failure? (ofFile file) =
    (file.versions.findSome? SchemaFile.misspelling?).or file.omission? := by
  rw [← SchemaFile.failure?_readVersions, ofFile]
  -- The versions are read before anything is made.
  cases read : SchemaFile.readVersions file.versions with
  | error cause => rfl
  | ok declared =>
    -- Once all versions are read, the steps are made group by group.
    have spelled := SchemaFile.wellSpelled_of_readVersions read
    rw [SchemaFile.readVersions_of_wellSpelled spelled] at read
    cases read
    refine (Except.failure?_bind_pure _ _).trans ?_
    rw [Except.failure?_mapM, SchemaFile.groupVersions_eq, List.findSome?_map,
      SchemaFile.omission?_eq]
    congr 1
    funext version
    exact VersionStep.failure?_ofDefinitions version _

/-- No version is misspelled exactly if all are well spelled. -/
theorem findSome?_misspelling?_eq_none_iff {file : SchemaFile} :
    file.versions.findSome? SchemaFile.misspelling? = none ↔ file.IsWellSpelled := by
  -- Each version has no error exactly if it is read.
  simp only [List.findSome?_eq_none_iff, SchemaFile.misspelling?, Option.map_eq_none_iff,
    Except.failure?_eq_none_iff]
  rfl

/-- A version is reported as misspelled exactly if it is the first one. -/
theorem findSome?_misspelling?_eq_some_iff {versions : List (String × VersionDefinition)}
    {text : String} {cause : VersionError} :
    versions.findSome? SchemaFile.misspelling? = some (.invalidVersion text cause) ↔
      ∃ before definition after, versions = before ++ (text, definition) :: after ∧
        (∀ entry ∈ before, ∃ version, Version.read entry.1 = .ok version) ∧
        Version.read text = .error cause := by
  simp only [List.findSome?_eq_some_iff, SchemaFile.misspelling?, Option.map_eq_none_iff,
    Except.failure?_eq_none_iff, Option.map_eq_some_iff, Except.failure?_eq_some_iff,
    SchemaError.invalidVersion.injEq]
  constructor
  · -- The entry that is found is the first one that cannot be read.
    rintro ⟨before, ⟨spelling, definition⟩, after, whole, ⟨cause, read, rfl, rfl⟩, spelled⟩
    exact ⟨before, definition, after, whole, spelled, read⟩
  · rintro ⟨before, definition, after, whole, spelled, read⟩
    exact ⟨before, (text, definition), after, whole, ⟨cause, read, rfl, rfl⟩, spelled⟩

/-- Misspelled versions are reported as such. -/
theorem exists_of_findSome?_misspelling? {versions : List (String × VersionDefinition)}
    {error : SchemaError} (found : versions.findSome? SchemaFile.misspelling? = some error) :
    ∃ text cause, error = .invalidVersion text cause := by
  -- The error is that of some entry.
  obtain ⟨entry, -, reported⟩ := List.exists_of_findSome?_eq_some found
  obtain ⟨cause, -, rfl⟩ := Option.map_eq_some_iff.1 reported
  exact ⟨entry.1, cause, rfl⟩

/-- A file with a misspelled version is refused for the first one, whatever else it declares. Of
other files one is refused exactly if a split or a merge leaves a name out, with an empty table or
not. Then the first such name is reported: by the first declarations of the versions, then by the
order of the changes, a split before a merge, and the metric before the attribute. -/
theorem ofFile_eq_error_iff (file : SchemaFile) :
    (∀ text cause, ofFile file = .error (.invalidVersion text cause) ↔
      ∃ before definition after, file.versions = before ++ (text, definition) :: after ∧
        (∀ entry ∈ before, ∃ version, Version.read entry.1 = .ok version) ∧
        Version.read text = .error cause) ∧
    (∀ spelling name, ofFile file = .error (.incompleteChange spelling name) ↔
      file.IsWellSpelled ∧
        ∃ before version after, file.requirements = before ++ (version, ⟨name, ""⟩) :: after ∧
          (∀ earlier ∈ before, earlier.2.given ≠ "") ∧
          file.firstSpelling? version = some spelling) ∧
    ((∃ schema, ofFile file = .ok schema) ↔ file.IsWellSpelled ∧ file.IsComplete) := by
  refine ⟨fun text cause => ?_, fun spelling name => ?_, ?_⟩
  · -- The versions are looked at first.
    rw [← findSome?_misspelling?_eq_some_iff, ← Except.failure?_eq_some_iff, failure?_ofFile,
      Option.or_eq_some_iff]
    -- A name that is left out is never reported as a misspelled version.
    refine or_iff_left ?_
    rintro ⟨-, omitted⟩
    obtain ⟨spelling, name, ⟨⟩⟩ := SchemaFile.exists_of_omission? omitted
  · -- The names are looked at if no version is misspelled.
    rw [← SchemaFile.omission?_eq_some_iff, ← findSome?_misspelling?_eq_none_iff,
      ← Except.failure?_eq_some_iff, failure?_ofFile, Option.or_eq_some_iff]
    -- Nor is a misspelled version reported as a name that is left out.
    refine or_iff_right ?_
    intro misspelled
    obtain ⟨text, cause, ⟨⟩⟩ := exists_of_findSome?_misspelling? misspelled
  · -- Otherwise neither a version nor a name is reported.
    rw [← Except.failure?_eq_none_iff, failure?_ofFile, Option.or_eq_none_iff,
      findSome?_misspelling?_eq_none_iff]
    exact and_congr_right SchemaFile.omission?_eq_none_iff

end Schema

end SchemaUplift
