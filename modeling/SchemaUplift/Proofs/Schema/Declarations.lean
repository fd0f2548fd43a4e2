import SchemaUplift.Proofs.Schema.Path
import SchemaUplift.Proofs.Version.Grammar

/-! What a file declares for each version decides on the schema that it makes: the order of the
declarations of different versions does not matter, nor does it matter whether a version is declared
at once or bit by bit. -/

namespace SchemaUplift

/-! ### Several definitions as one -/

namespace VersionDefinition

/-- The definition with the changes of several, section by section, in order. -/
def concat (definitions : List VersionDefinition) : VersionDefinition where
  all := definitions.flatMap (·.all)
  resources := definitions.flatMap (·.resources)
  spans := definitions.flatMap (·.spans)
  spanEvents := definitions.flatMap (·.spanEvents)
  metrics := definitions.flatMap (·.metrics)
  logs := definitions.flatMap (·.logs)

/-- Definitions among others may be put together first. -/
theorem concat_append_concat (before definitions after : List VersionDefinition) :
    concat (before ++ concat definitions :: after) = concat (before ++ definitions ++ after) := by
  simp [concat]

end VersionDefinition

/-- A step is made from several definitions as it is from the one that has all their changes. -/
theorem VersionStep.ofDefinitions_concat (version : Version)
    (definitions : List VersionDefinition) :
    ofDefinitions version [.concat definitions] = ofDefinitions version definitions := by
  -- The tables for all telemetry come first in each section, so they are compared once.
  have all : VersionDefinition.allTables [.concat definitions] =
      VersionDefinition.allTables definitions := by
    simp [VersionDefinition.allTables, VersionDefinition.concat, List.filterMap_flatMap]
  have resources : VersionDefinition.resourceTables [.concat definitions] =
      VersionDefinition.resourceTables definitions := by
    simp only [VersionDefinition.resourceTables, all]
    simp [VersionDefinition.concat, List.filterMap_flatMap]
  have spans : VersionDefinition.spanRules [.concat definitions] =
      VersionDefinition.spanRules definitions := by
    simp only [VersionDefinition.spanRules, all]
    simp [VersionDefinition.concat, List.filterMap_flatMap]
  have events : VersionDefinition.eventRules [.concat definitions] =
      VersionDefinition.eventRules definitions := by
    simp only [VersionDefinition.eventRules, all]
    simp [VersionDefinition.concat, List.flatMap_assoc]
  have metrics : MetricPart.ofDefinitions [.concat definitions] =
      MetricPart.ofDefinitions definitions := by
    simp only [MetricPart.ofDefinitions, all]
    simp [VersionDefinition.concat, List.flatMap_assoc]
  have logs : VersionDefinition.logTables [.concat definitions] =
      VersionDefinition.logTables definitions := by
    simp only [VersionDefinition.logTables, all]
    simp [VersionDefinition.concat, List.filterMap_flatMap]
  simp only [ofDefinitions, resources, spans, events, metrics, logs]

/-! ### What a file declares for a version -/

/-- An item is left when repetitions are erased exactly if it is the first of those equal to it. -/
theorem mem_eraseDups_iff_find? {α : Type} [BEq α] [EquivBEq α] {item : α} :
    ∀ {items : List α}, item ∈ items.eraseDups ↔ items.find? (item == ·) = some item
  | [] => by simp
  | first :: rest => by
    -- The statement holds of the rest without what repeats the first item, which is shorter.
    have others : item ∈ (rest.filter fun other => !other == first).eraseDups ↔
        (rest.filter fun other => !other == first).find? (item == ·) = some item :=
      mem_eraseDups_iff_find?
    rw [List.eraseDups_cons, List.mem_cons, List.find?_cons]
    cases same : item == first with
    | true =>
      -- What is left of the rest differs from the first item, and so from this one.
      have absent : item ∉ (rest.filter fun other => !other == first).eraseDups := by
        intro member
        have kept := (List.mem_filter.1 (mem_of_mem_eraseDups member)).2
        simp [same] at kept
      simp [absent, eq_comm]
    | false =>
      have different : item ≠ first := by
        rintro rfl
        simp at same
      -- Items equal to this one are not equal to the first.
      have passed : (rest.filter fun other => !other == first).find? (item == ·) =
          rest.find? (item == ·) := by
        rw [List.find?_filter]
        congr 1
        funext other
        cases equal : item == other with
        | false => simp
        | true => simp [← BEq.congr_left equal, same]
      -- The first item is another one, so the others decide on both sides.
      rw [others, passed]
      simp [different]
termination_by items => items.length
decreasing_by exact Nat.lt_succ_of_le (List.length_filter_le _ _)

namespace SchemaFile

/-- All versions of the file are well spelled. -/
def IsWellSpelled (file : SchemaFile) : Prop :=
  ∀ entry ∈ file.versions, ∃ version, Version.read entry.1 = .ok version

/-- Whether an entry declares a version, however it spells it. -/
def declares (version : Version) (entry : String × VersionDefinition) : Bool :=
  (Version.read entry.1).toOption.any (version == ·)

/-- The text with which a file first spells a version, without white space around it. -/
def firstSpelling? (file : SchemaFile) (version : Version) : Option String :=
  (file.versions.find? (declares version)).map fun entry =>
    String.ofList (Text.trimBlank entry.1.toList)

/-- All changes that a file declares for a version, section by section, in the order of their
declaration. -/
def changes (file : SchemaFile) (version : Version) : VersionDefinition :=
  .concat ((file.versions.filter (declares version)).map (·.2))

/-- The definitions of a version are those of the entries that declare it. -/
theorem definitions_eq (file : SchemaFile) (version : Version) :
    file.definitions version = (file.versions.filter (declares version)).map (·.2) := by
  simp only [definitions, definitionsOf, wellSpelled]
  -- An entry is passed over on both sides if it is misspelled or of another version.
  induction file.versions with
  | nil => rfl
  | cons entry rest ih =>
    cases read : Version.read entry.1 with
    | error cause => simpa [declares, read, Except.toOption] using ih
    | ok spelled =>
      cases same : version == spelled <;>
        simpa [declares, read, Except.toOption, same] using ih

/-- A version is among the distinct ones exactly if the first entry that declares it spells it
so. -/
theorem mem_distinctVersions_iff {file : SchemaFile} {version : Version} :
    version ∈ file.distinctVersions ↔
      ∃ entry, file.versions.find? (declares version) = some entry ∧
        Version.read entry.1 = .ok version := by
  -- A version is left of those that are read if the first entry equal to it reads so.
  have spelled : (wellSpelled file.versions).map (·.1) =
      file.versions.filterMap fun entry => (Version.read entry.1).toOption := by
    rw [wellSpelled, List.map_filterMap]
    congr 1
    funext entry
    cases Version.read entry.1 <;> rfl
  have read (entry : String × VersionDefinition) :
      (Version.read entry.1).toOption = some version ↔ Version.read entry.1 = .ok version := by
    cases Version.read entry.1 <;> simp [Except.toOption]
  rw [distinctVersions, List.mem_mergeSort, mem_eraseDups_iff_find?, spelled,
    List.find?_filterMap, Option.bind_eq_some_iff]
  simp only [read]
  rfl

/-! ### Files that agree -/

/-- Two files name the same URL and declare for each version the same changes under the same first
spelling. -/
structure Agrees (file other : SchemaFile) : Prop where
  /-- The URL is the same. -/
  schemaUrl : file.schemaUrl = other.schemaUrl
  /-- Either both files spell their versions well or neither does. -/
  spelled : file.IsWellSpelled ↔ other.IsWellSpelled
  /-- Each version has the same first spelling, if it is declared. -/
  firstSpelling? : ∀ version, file.firstSpelling? version = other.firstSpelling? version
  /-- Each version has the same changes. -/
  changes : ∀ version, file.changes version = other.changes version

namespace Agrees

variable {file other : SchemaFile}

/-- Agreement goes both ways. -/
theorem symm (agrees : file.Agrees other) : other.Agrees file where
  schemaUrl := agrees.schemaUrl.symm
  spelled := agrees.spelled.symm
  firstSpelling? version := (agrees.firstSpelling? version).symm
  changes version := (agrees.changes version).symm

/-- Agreement goes on over a file in the middle. -/
theorem trans {third : SchemaFile} (agrees : file.Agrees other) (others : other.Agrees third) :
    file.Agrees third where
  schemaUrl := agrees.schemaUrl.trans others.schemaUrl
  spelled := agrees.spelled.trans others.spelled
  firstSpelling? version :=
    (agrees.firstSpelling? version).trans (others.firstSpelling? version)
  changes version := (agrees.changes version).trans (others.changes version)

/-- A distinct version of a file is a distinct version of a file that agrees with it. -/
theorem mem_distinctVersions (agrees : file.Agrees other) {version : Version}
    (member : version ∈ file.distinctVersions) : version ∈ other.distinctVersions := by
  -- The first entry that declares the version spells it so.
  obtain ⟨entry, first, read⟩ := mem_distinctVersions_iff.1 member
  have spelling : other.firstSpelling? version =
      some (String.ofList (Text.trimBlank entry.1.toList)) := by
    rw [← agrees.firstSpelling? version, SchemaFile.firstSpelling?, first]
    rfl
  -- The other file's first spelling is read as this one.
  obtain ⟨otherEntry, otherFirst, same⟩ := Option.map_eq_some_iff.1 spelling
  have alike := Version.read_congr (String.ofList_injective same)
  exact mem_distinctVersions_iff.2 ⟨otherEntry, otherFirst, alike.trans read⟩

/-- Files that agree have the same distinct versions. -/
theorem distinctVersions_eq (agrees : file.Agrees other) :
    file.distinctVersions = other.distinctVersions := by
  -- Versions that ascend strictly are distinct.
  have nodup (file : SchemaFile) : file.distinctVersions.Nodup :=
    file.pairwise_distinctVersions.imp fun before same =>
      absurd (same ▸ before) (Version.lt_irrefl _)
  -- Both lists ascend strictly and hold the same versions.
  have same : file.distinctVersions.Perm other.distinctVersions := by
    rw [List.perm_ext_iff_of_nodup (nodup file) (nodup other)]
    intro version
    exact ⟨agrees.mem_distinctVersions, agrees.symm.mem_distinctVersions⟩
  exact Version.eq_of_perm_of_lt file.pairwise_distinctVersions other.pairwise_distinctVersions same

/-- Files that agree make the same step for each version. -/
theorem ofDefinitions_eq (agrees : file.Agrees other) (version : Version) :
    VersionStep.ofDefinitions version (file.definitions version) =
      VersionStep.ofDefinitions version (other.definitions version) := by
  -- Both steps are made as from one definition with all changes, and these are the same.
  rw [definitions_eq, definitions_eq, ← VersionStep.ofDefinitions_concat,
    ← VersionStep.ofDefinitions_concat version ((other.versions.filter _).map _)]
  exact congrArg (fun changes => VersionStep.ofDefinitions version [changes])
    (agrees.changes version)

/-- A schema made from a file is made from a file that agrees with it. -/
theorem ofFile_eq_ok (agrees : file.Agrees other) {schema : Schema}
    (made : Schema.ofFile file = .ok schema) : Schema.ofFile other = .ok schema := by
  -- The schema is told by its versions, its steps and its URL.
  obtain ⟨spelled, leads, each, url⟩ := Schema.ofFile_eq_ok_iff.1 made
  refine Schema.ofFile_eq_ok_iff.2
    ⟨agrees.spelled.1 spelled, leads.trans agrees.distinctVersions_eq, ?_, ?_⟩
  · -- A step is made from the changes of its version, in either file.
    intro step member
    rw [← agrees.ofDefinitions_eq]
    exact each step member
  · rw [← agrees.schemaUrl]
    exact url

/-- Files that agree make the same schema, or neither makes one. -/
theorem toOption_ofFile_eq (agrees : file.Agrees other) :
    (Schema.ofFile file).toOption = (Schema.ofFile other).toOption := by
  -- The case split is on whether the first file makes a schema.
  cases made : Schema.ofFile file with
  | ok schema => rw [agrees.ofFile_eq_ok made]
  | error cause =>
    -- A schema made from the other file would be made from this one.
    cases otherMade : Schema.ofFile other with
    | ok schema => simp [agrees.symm.ofFile_eq_ok otherMade] at made
    | error otherCause => rfl

/-- A file agrees with one that has the same declarations in another order, if those of each version
are in the same order. -/
theorem of_perm {versions : List (String × VersionDefinition)}
    (permuted : versions.Perm file.versions)
    (ordered : ∀ version, versions.filter (declares version) =
      file.versions.filter (declares version)) :
    file.Agrees { file with versions } where
  schemaUrl := rfl
  -- The same entries are well spelled, in whatever order they are.
  spelled := by simp only [IsWellSpelled, permuted.mem_iff]
  firstSpelling? version := by
    -- The first entry that declares a version is the first one of those that do.
    simp only [SchemaFile.firstSpelling?, ← List.head?_filter, ordered]
  changes version := by
    simp only [SchemaFile.changes, ordered]

end Agrees

/-! ### Declaring a version at once -/

/-- The first declaration of a version with the changes of all its declarations among some entries
that follow, and then the other ones of these. -/
def gathered (version : Version) (first : String × VersionDefinition)
    (entries : List (String × VersionDefinition)) : List (String × VersionDefinition) :=
  (first.1, .concat (first.2 :: (entries.filter (declares version)).map (·.2))) ::
    entries.filter (!declares version ·)

/-- Equal versions are declared by the same entries. -/
theorem declares_congr {version other : Version} (same : version == other) :
    declares version = declares other := by
  funext entry
  -- An entry is compared with either version, with the same outcome.
  simp only [declares, BEq.congr_left same]

/-- Versions that one entry declares are equal. -/
theorem beq_of_declares {version other : Version} {entry : String × VersionDefinition}
    (declared : declares version entry) (otherDeclared : declares other entry) :
    version == other := by
  simp only [declares] at declared otherDeclared
  -- Both versions are equal to the one that the entry spells.
  cases read : (Version.read entry.1).toOption with
  | none => simp [read] at declared
  | some spelled =>
    rw [read, Option.any_some] at declared otherDeclared
    exact BEq.trans declared (BEq.symm otherDeclared)

/-- What declares a version is well spelled. -/
theorem exists_read_of_declares {version : Version} {entry : String × VersionDefinition}
    (declared : declares version entry) : ∃ spelled, Version.read entry.1 = .ok spelled := by
  simp only [declares] at declared
  -- A misspelled entry declares nothing.
  cases read : Version.read entry.1 with
  | ok spelled => exact ⟨spelled, rfl⟩
  | error cause => simp [read, Except.toOption] at declared

/-- Entries may pass others if no two of them declare the same version. -/
theorem filter_declares_append_comm {entries others : List (String × VersionDefinition)}
    (apart : ∀ entry ∈ entries, ∀ other ∈ others,
      (Version.read other.1).toOption.any (declares · entry) = false) (version : Version) :
    (entries ++ others).filter (declares version) =
      (others ++ entries).filter (declares version) := by
  rw [List.filter_append, List.filter_append]
  -- The version is declared by the first entries, by the others, or by none.
  by_cases declared : ∃ entry ∈ entries, declares version entry
  · obtain ⟨entry, member, declared⟩ := declared
    -- None of the others declares the version.
    have none : others.filter (declares version) = [] := by
      rw [List.filter_eq_nil_iff]
      intro other otherMember otherDeclared
      obtain ⟨spelled, read⟩ := exists_read_of_declares otherDeclared
      have same : version == spelled := by
        simpa [declares, read, Except.toOption] using otherDeclared
      have clear := apart entry member other otherMember
      rw [read, declares_congr same] at *
      simp [Except.toOption, declared] at clear
    simp [none]
  · have none : entries.filter (declares version) = [] := by
      rw [List.filter_eq_nil_iff]
      exact fun entry member entryDeclared => declared ⟨entry, member, entryDeclared⟩
    simp [none]

section Gathered

variable {version : Version} {first : String × VersionDefinition}

/-- The declarations of a version, gathered. -/
theorem filter_gathered_of_declares (declared : declares version first) {other : Version}
    (same : other == version) (entries : List (String × VersionDefinition)) :
    (gathered version first entries).filter (declares other) =
      [(first.1, .concat (first.2 :: (entries.filter (declares other)).map (·.2)))] := by
  -- The first entry declares the version whatever its changes are by now.
  have declaredAgain (definition : VersionDefinition) :
      declares version (first.1, definition) = true := declared
  rw [declares_congr same, gathered, List.filter_cons_of_pos (declaredAgain _),
    List.filter_filter]
  simp

/-- Gathering does not touch the declarations of other versions. -/
theorem filter_gathered_of_not_declares (declared : declares version first) {other : Version}
    (different : ¬ other == version) (entries : List (String × VersionDefinition)) :
    (gathered version first entries).filter (declares other) =
      (first :: entries).filter (declares other) := by
  -- No entry declares both versions, so what is gathered is not looked at.
  have apart (entry : String × VersionDefinition) (member : declares other entry) :
      declares version entry = false := by
    by_contra both
    exact different (beq_of_declares member (by simpa using both))
  -- The first entry is left out on both sides.
  have firstElse : ¬ declares other first := fun member => by
    simp [apart first member] at declared
  have firstElse' (definition : VersionDefinition) : ¬ declares other (first.1, definition) :=
    firstElse
  rw [gathered, List.filter_cons_of_neg (firstElse' _), List.filter_cons_of_neg firstElse,
    List.filter_filter]
  refine List.filter_congr fun entry _ => ?_
  cases member : declares other entry with
  | false => rfl
  | true => simp [apart entry member]

/-- A file agrees with one where declarations of a version that stand among some entries are
gathered at the first of them. -/
theorem Agrees.of_gathered {file : SchemaFile}
    {before entries after : List (String × VersionDefinition)}
    (all : file.versions = before ++ first :: (entries ++ after))
    (declared : declares version first) :
    file.Agrees { file with versions := before ++ (gathered version first entries ++ after) } where
  schemaUrl := rfl
  spelled := by
    have firstSpelled := exists_read_of_declares declared
    constructor
    · -- An entry of the new list is one of the old ones, or spells the version as the first one
      -- does.
      intro spelled entry member
      simp only [gathered, List.mem_append, List.mem_cons, List.mem_filter] at member
      rcases member with member | (rfl | ⟨member, -⟩) | member
      · exact spelled entry (by simp [all, member])
      · exact firstSpelled
      · exact spelled entry (by simp [all, member])
      · exact spelled entry (by simp [all, member])
    · intro spelled entry member
      -- What is no longer an entry declares the version, so it is well spelled.
      by_cases gatheredUp : declares version entry
      · exact exists_read_of_declares gatheredUp
      · simp only [all, List.mem_append, List.mem_cons] at member
        rcases member with member | rfl | member | member
        · exact spelled entry (by simp [member])
        · exact firstSpelled
        · exact spelled entry (by simp [gathered, member, gatheredUp])
        · exact spelled entry (by simp [member])
  firstSpelling? other := by
    simp only [SchemaFile.firstSpelling?, ← List.head?_filter, all, ← List.cons_append,
      List.filter_append]
    -- The version is the one that is gathered, or another one.
    by_cases same : other == version
    · have declaredSame : declares other first := by rwa [declares_congr same]
      rw [filter_gathered_of_declares declared same, List.filter_cons_of_pos declaredSame]
      -- An earlier declaration keeps its place, and else the first one keeps its spelling.
      cases before.filter (declares other) <;> rfl
    · rw [filter_gathered_of_not_declares declared same]
  changes other := by
    simp only [SchemaFile.changes, all, ← List.cons_append, List.filter_append]
    by_cases same : other == version
    · have declaredSame : declares other first := by rwa [declares_congr same]
      rw [filter_gathered_of_declares declared same, List.filter_cons_of_pos declaredSame]
      -- The changes that are gathered are put together first, which makes no difference.
      simp only [List.map_append, List.map_cons, List.cons_append, List.nil_append]
      rw [VersionDefinition.concat_append_concat]
      simp
    · rw [filter_gathered_of_not_declares declared same]

end Gathered

end SchemaFile

namespace Schema

open SchemaFile in
/-- Two files that agree make the same schema, or neither makes one. So it does when declarations of
different versions change places, and when declarations of a version that stand among some entries
become one declaration, at the first of them. -/
theorem toOption_ofFile_of_agrees :
    (∀ file other : SchemaFile, file.Agrees other →
      (ofFile file).toOption = (ofFile other).toOption) ∧
    (∀ (file : SchemaFile) (versions : List (String × VersionDefinition)),
      versions.Perm file.versions →
      (∀ version, versions.filter (declares version) = file.versions.filter (declares version)) →
      (ofFile file).toOption = (ofFile { file with versions }).toOption) ∧
    ∀ (file : SchemaFile) (version : Version) (first : String × VersionDefinition)
      (before entries after : List (String × VersionDefinition)),
      file.versions = before ++ first :: (entries ++ after) → declares version first →
      (ofFile file).toOption =
        (ofFile { file with
          versions := before ++ (gathered version first entries ++ after) }).toOption := by
  -- The first fact is the general one, and the others give files that agree.
  refine ⟨?_, ?_, ?_⟩
  · intro file other agrees
    exact agrees.toOption_ofFile_eq
  · intro file versions permuted ordered
    exact (Agrees.of_perm permuted ordered).toOption_ofFile_eq
  · intro file version first before entries after all declared
    exact (Agrees.of_gathered all declared).toOption_ofFile_eq

/-- The file `respelled` with version 1.0 before version 1.1. -/
def respelledInOrder : SchemaFile :=
  { respelled with versions := respelled.versions.drop 1 ++ respelled.versions.take 1 }

/-- The file `respelled` with version 1.0 before version 1.1 and declared at once. -/
def respelledAtOnce : SchemaFile :=
  ⟨"1.0.0", "https://opentelemetry.io/schemas/1.1.0",
    [("1.0", { VersionDefinition.empty with
        resources := [some (.ofList [("h", "host")])]
        logs := [some (.ofList [("m", "message")])] }),
      ("1.1.0", { VersionDefinition.empty with
        all := [some (.ofList [("host", "host.name")])] })]⟩

/-- All three make the same schema, as only version 1.1 passes the others. -/
theorem toOption_ofFile_of_agrees_respelled : respelled.Agrees respelledAtOnce ∧
    (ofFile respelledInOrder).toOption = (ofFile respelledAtOnce).toOption ∧
    ∃ schema, ofFile respelled = .ok schema ∧
      (ofFile respelledInOrder).toOption = some schema ∧
      (ofFile respelledAtOnce).toOption = some schema := by
  obtain ⟨agreeing, permuted, gathered⟩ := toOption_ofFile_of_agrees
  -- Only the declaration of version 1.1 has moved.
  have rotated : respelledInOrder.versions.Perm respelled.versions := List.perm_append_comm
  have ordered : ∀ version, respelledInOrder.versions.filter (SchemaFile.declares version) =
      respelled.versions.filter (SchemaFile.declares version) :=
    SchemaFile.filter_declares_append_comm (by decide +kernel)
  -- The second entry declares version 1.
  have declared : SchemaFile.declares ⟨[1], "1"⟩ respelled.versions[1] := by decide +kernel
  have together : respelledAtOnce = { respelledInOrder with
      versions := [] ++ (SchemaFile.gathered ⟨[1], "1"⟩ respelled.versions[1]
        [respelled.versions[2]] ++ respelled.versions.take 1) } := rfl
  -- The file agrees with its rearrangement, and that with the gathered one.
  have agrees : respelled.Agrees respelledAtOnce := by
    rw [together]
    exact (SchemaFile.Agrees.of_perm rotated ordered).trans
      (SchemaFile.Agrees.of_gathered rfl declared)
  -- The file makes a schema, as evaluation shows.
  obtain ⟨schema, made⟩ : ∃ schema, ofFile respelled = .ok schema :=
    Except.exists_of_isOk (by decide +kernel)
  have inOrder := permuted respelled respelledInOrder.versions rotated ordered
  have atOnce := gathered respelledInOrder ⟨[1], "1"⟩ respelled.versions[1] []
    [respelled.versions[2]] (respelled.versions.take 1) rfl declared
  have same := agreeing respelled respelledAtOnce agrees
  rw [made] at inOrder same
  rw [← together] at atOnce
  exact ⟨agrees, atOnce, schema, made, inOrder.symm, same.symm⟩

end Schema

end SchemaUplift
