import Mathlib.Data.List.Pairwise
import SchemaUplift.Proofs.Except
import SchemaUplift.Proofs.Schema.Grouping

/-! The steps of a schema made from a file: one for each declared version, ascending. Data has yet
to take the steps to newer versions. -/

namespace SchemaUplift

/-! ### Lists of versions -/

/-- Erasing repetitions and picking items by a test that equal items pass alike may change
places. -/
theorem eraseDups_filter {α : Type} [BEq α] [EquivBEq α] {test : α → Bool}
    (alike : ∀ a b, a == b → test a = test b) :
    ∀ items : List α, (items.filter test).eraseDups = items.eraseDups.filter test
  | [] => rfl
  | first :: rest => by
    -- The recursion goes on with the items other than the first one, of which there are fewer.
    have others := eraseDups_filter alike (rest.filter fun item => !item == first)
    rw [List.eraseDups_cons]
    cases passes : test first with
    | true =>
      -- The first item is picked on both sides, and the two tests are made in the other order.
      rw [List.filter_cons_of_pos passes, List.filter_cons_of_pos passes, List.eraseDups_cons,
        ← others, List.filter_filter, List.filter_filter]
      simp only [Bool.and_comm]
    | false =>
      -- The items equal to the first one fail the test as it does.
      have apart (item : α) : (test item && !item == first) = test item := by
        cases same : item == first with
        | false => simp
        | true => simp [alike item first same, passes]
      rw [List.filter_cons_of_neg (by simp [passes]), List.filter_cons_of_neg (by simp [passes]),
        ← others, List.filter_filter]
      simp only [apart]
termination_by items => items.length
decreasing_by exact Nat.lt_succ_of_le (List.length_filter_le _ _)

/-- The items up to the first that fails a test are those that pass it, and the items from there on
are those that fail it, if none that passes comes after one that fails. -/
theorem takeWhile_dropWhile_eq_filter {α : Type} {test : α → Bool} {items : List α}
    (parted : items.Pairwise fun a b => test b → test a) :
    items.takeWhile test = items.filter test ∧ items.dropWhile test = items.filter (!test ·) := by
  -- The induction stops at the first item that fails: all others fail then.
  induction parted with
  | nil => simp
  | @cons first rest later parted ih =>
    cases passes : test first with
    -- The first item passes, and the others are parted as before.
    | true => simpa [passes] using ih
    | false =>
      have others : ∀ item ∈ rest, test item = false := fun item member => by
        simpa [passes] using later item member
      have kept : rest.filter (!test ·) = rest := by simpa using others
      simpa [passes, kept] using others

namespace Version

/-- Versions without repetition are put in strictly ascending order. -/
theorem pairwise_lt_mergeSort {versions : List Version}
    (distinct : versions.Pairwise fun a b => ¬ a == b) :
    (versions.mergeSort atMost).Pairwise (· < ·) := by
  -- Sorting moves the versions about, which leaves no two of them equal.
  have apart : (versions.mergeSort atMost).Pairwise fun a b => ¬ a == b :=
    distinct.perm (List.mergeSort_perm _ _).symm fun different same => different (BEq.symm same)
  have ascending := List.pairwise_mergeSort atMost_trans atMost_total versions
  -- Ascending and not equal is strictly ascending.
  exact (ascending.and apart).imp fun ⟨atMost, different⟩ => lt_of_le_of_ne atMost different

/-- Two strictly ascending lists of the same versions are equal. -/
theorem eq_of_perm_of_lt {versions others : List Version} (ascending : versions.Pairwise (· < ·))
    (ascending' : others.Pairwise (· < ·)) (same : versions.Perm others) : versions = others :=
  same.eq_of_pairwise
    (fun a _ _ _ before after => absurd (lt_of_lt_of_le before (le_of_lt after)) (lt_irrefl a))
    ascending ascending'

end Version

namespace SchemaFile

/-- The versions that a file declares, each at its first spelling, ascending. -/
def distinctVersions (file : SchemaFile) : List Version :=
  ((wellSpelled file.versions).map (·.1)).eraseDups.mergeSort Version.atMost

/-- The definitions that a file gives for a version, in the order of the file. -/
def definitions (file : SchemaFile) (version : Version) : List VersionDefinition :=
  definitionsOf version (wellSpelled file.versions)

/-- The distinct versions ascend strictly. -/
theorem pairwise_distinctVersions (file : SchemaFile) :
    file.distinctVersions.Pairwise (· < ·) :=
  Version.pairwise_lt_mergeSort (pairwise_eraseDups _)

/-- The distinct versions are declared. -/
theorem exists_of_mem_distinctVersions {file : SchemaFile} {version : Version}
    (member : version ∈ file.distinctVersions) :
    ∃ entry ∈ file.versions, Version.read entry.1 = .ok version := by
  -- What is left of the versions is among those that were read.
  have kept := mem_of_mem_eraseDups (List.mem_mergeSort.1 member)
  simp only [wellSpelled, List.map_filterMap, List.mem_filterMap, Option.map_map] at kept
  obtain ⟨entry, member, read⟩ := kept
  refine ⟨entry, member, ?_⟩
  cases spelled : Version.read entry.1 <;> simp_all [Except.toOption]

/-- Every declared version is equal to a distinct one. -/
theorem exists_mem_distinctVersions {file : SchemaFile} {entry : String × VersionDefinition}
    {version : Version} (member : entry ∈ file.versions)
    (read : Version.read entry.1 = .ok version) :
    ∃ kept ∈ file.distinctVersions, version == kept := by
  -- The version is among those that were read.
  have declared : version ∈ (wellSpelled file.versions).map (·.1) := by
    simp only [wellSpelled, List.map_filterMap, List.mem_filterMap]
    exact ⟨entry, member, by simp [read, Except.toOption]⟩
  -- Repetitions are erased in favour of a version equal to it.
  obtain ⟨kept, member, same⟩ := exists_mem_eraseDups declared
  exact ⟨kept, List.mem_mergeSort.2 member, same⟩

end SchemaFile

/-! ### Steps from definitions -/

namespace VersionStep

/-- A step is made from its parts if the changes to metrics can be put into stages. -/
theorem eq_of_ofDefinitions {version : Version} {definitions : List VersionDefinition}
    {step : VersionStep} (made : ofDefinitions version definitions = .ok step) :
    ∃ stages, MetricPart.stages version []
        (Prunable.keepLast (MetricPart.ofDefinitions definitions)) = .ok stages ∧
      step = {
        version
        resource := (Prunable.keepLast (VersionDefinition.resourceTables definitions)).filter
          (!·.isEmpty)
        spans := {
          rules := (Prunable.keepLast (VersionDefinition.spanRules definitions)).filter
            (!·.table.isEmpty)
          events := (Prunable.keepLast (VersionDefinition.eventRules definitions)).filter
            (!·.isVoid) }
        metrics := ⟨stages⟩
        logs := (Prunable.keepLast (VersionDefinition.logTables definitions)).filter
          (!·.isEmpty) } := by
  rw [ofDefinitions] at made
  -- The changes to metrics are the only part that can be refused.
  cases stages : MetricPart.stages version []
      (Prunable.keepLast (MetricPart.ofDefinitions definitions)) with
  | error cause => simp [stages, Bind.bind, Except.bind] at made
  | ok stages' =>
    rw [stages] at made
    cases made
    exact ⟨stages', rfl, rfl⟩

/-- A step leads to the version that it is made for. -/
theorem version_of_ofDefinitions {version : Version} {definitions : List VersionDefinition}
    {step : VersionStep} (made : ofDefinitions version definitions = .ok step) :
    step.version = version := by
  obtain ⟨stages, -, rfl⟩ := eq_of_ofDefinitions made
  rfl

/-- The steps for some versions are made exactly if they lead to those versions in order, and each
is made from the definitions of its own version. -/
theorem mapM_ofDefinitions {definitions : Version → List VersionDefinition}
    {versions : List Version} {steps : List VersionStep} :
    versions.mapM (fun version => ofDefinitions version (definitions version)) = .ok steps ↔
      steps.map (·.version) = versions ∧
        ∀ step ∈ steps, ofDefinitions step.version (definitions step.version) = .ok step := by
  -- Forward by induction on the steps made; backward each version is that of its step.
  -- A list of steps is made exactly if each is made from the definitions of its version.
  rw [Except.mapM_eq_ok_iff]
  constructor
  · intro made
    induction made with
    | nil => simp
    | cons first _ ih =>
      have leads := version_of_ofDefinitions first
      exact ⟨by simp [leads, ih.1], List.forall_mem_cons.2 ⟨leads.symm ▸ first, ih.2⟩⟩
  · rintro ⟨rfl, made⟩
    exact List.forall₂_map_left_iff.2 (List.forall₂_same.2 made)

/-- Steps put in order are those for the versions put in order. -/
theorem mapM_ofDefinitions_mergeSort {definitions : Version → List VersionDefinition}
    {versions : List Version} {steps : List VersionStep}
    (made : versions.mapM (fun version => ofDefinitions version (definitions version)) =
      .ok steps) :
    (versions.mergeSort Version.atMost).mapM
        (fun version => ofDefinitions version (definitions version)) =
      .ok (steps.mergeSort fun a b => a.version.atMost b.version) := by
  -- The steps are those for their own versions, however they are put in order.
  obtain ⟨leads, each⟩ := mapM_ofDefinitions.1 made
  refine mapM_ofDefinitions.2 ⟨?_, fun step member => each step (List.mem_mergeSort.1 member)⟩
  -- Steps are compared by their versions.
  rw [← leads]
  exact List.map_mergeSort fun _ _ _ _ => rfl

end VersionStep

namespace Schema

/-- A file makes a schema exactly if all its versions are well spelled, the steps lead to its
distinct versions in order, each is made from the definitions that the file gives for its version,
and the URL is that of the file. -/
theorem ofFile_eq_ok_iff {file : SchemaFile} {schema : Schema} :
    ofFile file = .ok schema ↔
      (∀ entry ∈ file.versions, ∃ version, Version.read entry.1 = .ok version) ∧
      schema.versions.map (·.version) = file.distinctVersions ∧
      (∀ step ∈ schema.versions,
        VersionStep.ofDefinitions step.version (file.definitions step.version) = .ok step) ∧
      schema.schemaUrl = if file.schemaUrl.isEmpty then none else some file.schemaUrl := by
  cases read : SchemaFile.readVersions file.versions with
  | error cause =>
    -- Versions that are all well spelled could be read.
    simp only [ofFile, read, Bind.bind, Except.bind, reduceCtorEq, false_iff]
    rintro ⟨spelled, -⟩
    simp [SchemaFile.readVersions_of_wellSpelled spelled] at read
  | ok declared =>
    have spelled := SchemaFile.wellSpelled_of_readVersions read
    rw [SchemaFile.readVersions_of_wellSpelled spelled] at read
    cases read
    -- Groups are made for the versions that are left without repetitions.
    have grouped : (SchemaFile.groupVersions (SchemaFile.wellSpelled file.versions)).mapM
          (fun group => VersionStep.ofDefinitions group.1 group.2) =
        ((SchemaFile.wellSpelled file.versions).map (·.1)).eraseDups.mapM fun version =>
          VersionStep.ofDefinitions version (file.definitions version) := by
      rw [SchemaFile.groupVersions_eq, List.mapM_map]
      rfl
    simp only [ofFile, SchemaFile.readVersions_of_wellSpelled spelled, grouped, Bind.bind,
      Except.bind]
    constructor
    · -- The steps that were made are the ones of the schema, once they are put in order.
      intro made
      cases steps : ((SchemaFile.wellSpelled file.versions).map (·.1)).eraseDups.mapM
          fun version => VersionStep.ofDefinitions version (file.definitions version) with
      | error cause => simp [steps] at made
      | ok steps' =>
        rw [steps] at made
        cases made
        obtain ⟨leads, each⟩ :=
          VersionStep.mapM_ofDefinitions.1 (VersionStep.mapM_ofDefinitions_mergeSort steps)
        exact ⟨spelled, leads, each, rfl⟩
    · -- The steps are made in the order of the file before they are put in order.
      rintro ⟨-, leads, each, url⟩
      have sorted : file.distinctVersions.mapM (fun version =>
          VersionStep.ofDefinitions version (file.definitions version)) = .ok schema.versions :=
        VersionStep.mapM_ofDefinitions.2 ⟨leads, each⟩
      obtain ⟨steps, made⟩ := Except.exists_mapM_of_perm sorted (List.mergeSort_perm _ _).symm
      have same := (VersionStep.mapM_ofDefinitions_mergeSort made).symm.trans sorted
      obtain ⟨versions, schemaUrl, ascending⟩ := schema
      simp_all [ofVersions, Pure.pure, Except.pure]

/-- The steps of a schema made from a file ascend strictly. -/
theorem pairwise_of_ofFile {file : SchemaFile} {schema : Schema}
    (made : ofFile file = .ok schema) :
    schema.versions.Pairwise fun a b => a.version < b.version := by
  -- The versions of the steps are the distinct versions of the file.
  obtain ⟨-, versions, -⟩ := ofFile_eq_ok_iff.1 made
  exact List.pairwise_map.1 (versions ▸ file.pairwise_distinctVersions)

/-- Steps of a schema made from a file lead to declared versions. -/
theorem declared_of_ofFile {file : SchemaFile} {schema : Schema}
    (made : ofFile file = .ok schema) :
    ∀ step ∈ schema.versions, ∃ entry ∈ file.versions,
      Version.read entry.1 = .ok step.version := by
  obtain ⟨-, versions, -⟩ := ofFile_eq_ok_iff.1 made
  intro step member
  exact SchemaFile.exists_of_mem_distinctVersions (versions ▸ List.mem_map_of_mem member)

/-- Each declared version has exactly one step in a schema made from the file. -/
theorem exists_unique_of_ofFile {file : SchemaFile} {schema : Schema}
    (made : ofFile file = .ok schema) :
    ∀ entry ∈ file.versions, ∃ version, Version.read entry.1 = .ok version ∧
      ∃! step, step ∈ schema.versions ∧ step.version == version := by
  obtain ⟨spelled, versions, -⟩ := ofFile_eq_ok_iff.1 made
  intro entry member
  obtain ⟨version, read⟩ := spelled entry member
  -- The version is left once its repetitions are erased, and a step leads to it.
  obtain ⟨kept, keptMember, same⟩ := SchemaFile.exists_mem_distinctVersions member read
  rw [← versions] at keptMember
  obtain ⟨step, stepMember, rfl⟩ := List.mem_map.1 keptMember
  refine ⟨version, read, step, ⟨stepMember, BEq.symm same⟩, ?_⟩
  rintro other ⟨otherMember, otherSame⟩
  -- Of two steps to equal versions neither can come before the other.
  have apart : schema.versions.Pairwise fun a b => ¬ a.version == b.version :=
    (pairwise_of_ofFile made).imp Version.not_beq_of_lt
  have symmetric : Std.Symm fun a b : VersionStep => ¬ a.version == b.version :=
    ⟨fun _ _ different same => different (BEq.symm same)⟩
  by_contra different
  exact apart.forall otherMember stepMember different (BEq.trans otherSame same)

/-- No step to a newer version comes before one to a version that is at most a bound. -/
theorem parted (schema : Schema) (bound : Version) :
    schema.versions.Pairwise fun a b => b.version.atMost bound → a.version.atMost bound :=
  -- The test is against a bound, and steps ascend.
  schema.ascending.imp fun before passes => Version.atMost_trans _ _ _ before passes

/-- The steps yet to take are those to newer versions. -/
theorem pending_eq_filter (schema : Schema) (start : Version) :
    schema.pending start = schema.versions.filter fun step => start < step.version := by
  rw [pending, (takeWhile_dropWhile_eq_filter (schema.parted start)).2]
  -- A version that is not at most the start is newer.
  refine List.filter_congr fun step _ => ?_
  simp [← Version.not_le, ← Version.atMost_iff]

end Schema

/-! ### Cutting down to older versions -/

namespace SchemaFile

/-- The file without the declarations of versions newer than a bound. -/
def upTo (file : SchemaFile) (bound : Version) : SchemaFile :=
  { file with
    versions := file.versions.filter fun entry =>
      (Version.read entry.1).toOption.any (·.atMost bound) }

/-- Cutting a file down picks the declarations of versions that are at most the bound. -/
theorem wellSpelled_upTo (file : SchemaFile) (bound : Version) :
    wellSpelled (file.upTo bound).versions =
      (wellSpelled file.versions).filter (·.1.atMost bound) := by
  simp only [upTo, wellSpelled, List.filterMap_filter, List.filter_filterMap]
  refine List.filterMap_congr fun entry _ => ?_
  -- An entry that is misspelled is dropped on both sides.
  cases (Version.read entry.1).toOption <;> simp [Option.filter]

/-- A file cut down declares the distinct versions that are at most the bound. -/
theorem distinctVersions_upTo (file : SchemaFile) (bound : Version) :
    (file.upTo bound).distinctVersions = file.distinctVersions.filter (·.atMost bound) := by
  -- Equal versions are at most the bound together, so that repetitions may be erased before the
  -- cut.
  have picked : ((wellSpelled (file.upTo bound).versions).map (·.1)).eraseDups =
      ((wellSpelled file.versions).map (·.1)).eraseDups.filter (·.atMost bound) := by
    rw [wellSpelled_upTo, ← eraseDups_filter, List.filter_map]
    · rfl
    · intro a b same
      rw [Bool.eq_iff_iff]
      exact Version.le_congr_left same bound
  -- Both sides are strictly ascending and hold the same versions.
  refine Version.eq_of_perm_of_lt (pairwise_distinctVersions _)
    (file.pairwise_distinctVersions.filter _) ?_
  rw [distinctVersions, picked]
  exact (List.mergeSort_perm _ _).trans ((List.mergeSort_perm _ _).symm.filter _)

/-- A file cut down gives the same definitions for the versions that it keeps. -/
theorem definitions_upTo (file : SchemaFile) {bound version : Version} (kept : version ≤ bound) :
    (file.upTo bound).definitions version = file.definitions version := by
  -- The definitions are picked by two tests, of which the second one takes nothing away.
  rw [definitions, wellSpelled_upTo, definitions, definitionsOf, definitionsOf, List.filter_filter]
  congr 1
  refine List.filter_congr fun entry _ => ?_
  -- A spelling of the version is at most the bound too.
  cases same : version == entry.1 with
  | false => rfl
  | true => simpa using (Version.le_congr_left same bound).1 kept

end SchemaFile

namespace Schema

/-- The schema without the steps to versions newer than a bound. -/
def upTo (schema : Schema) (bound : Version) : Schema where
  versions := schema.versions.filter (·.version.atMost bound)
  schemaUrl := schema.schemaUrl
  ascending := schema.ascending.filter _

/-- A file cut down makes the schema cut down. -/
theorem ofFile_upTo {file : SchemaFile} {schema : Schema} (made : ofFile file = .ok schema)
    (bound : Version) : ofFile (file.upTo bound) = .ok (schema.upTo bound) := by
  -- The three conditions on a file and its schema survive the cut.
  obtain ⟨spelled, versions, each, url⟩ := ofFile_eq_ok_iff.1 made
  refine ofFile_eq_ok_iff.2 ⟨fun entry member => ?_, ?_, fun step member => ?_, url⟩
  · -- All versions that are left are well spelled.
    exact spelled entry (List.mem_of_mem_filter member)
  · -- The versions that are left are those of the steps that are left.
    rw [SchemaFile.distinctVersions_upTo, ← versions, List.filter_map]
    rfl
  · -- A step that is left has all its definitions in the file cut down.
    obtain ⟨member, kept⟩ := List.mem_filter.1 member
    rw [SchemaFile.definitions_upTo file kept]
    exact each step member

/-- Data takes the steps up to a version and then those from it on. -/
theorem pending_upTo_append (schema : Schema) {start middle : Version} (before : start ≤ middle) :
    (schema.upTo middle).pending start ++ schema.pending middle = schema.pending start := by
  -- The steps are parted by the version in the middle.
  have parted : (schema.upTo middle).versions ++ schema.pending middle = schema.versions := by
    show schema.versions.filter (·.version.atMost middle) ++ schema.pending middle = _
    rw [← (takeWhile_dropWhile_eq_filter (schema.parted middle)).1]
    exact List.takeWhile_append_dropWhile
  -- What is newer than the middle version is newer than the start.
  have newer : (schema.pending middle).filter (fun step => start < step.version) =
      schema.pending middle := by
    refine List.filter_eq_self.2 fun step member => ?_
    rw [pending_eq_filter, List.mem_filter] at member
    simpa using Version.lt_of_le_of_lt before (by simpa using member.2)
  -- The steps after the start are picked on both sides of that part.
  rw [pending_eq_filter (schema.upTo middle), pending_eq_filter schema start, ← parted,
    List.filter_append, newer]

end Schema

end SchemaUplift
