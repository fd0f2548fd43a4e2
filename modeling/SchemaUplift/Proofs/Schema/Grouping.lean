import Mathlib.Data.List.Forall2
import SchemaUplift.Proofs.Version.Order
import SchemaUplift.Schema.OfFile

/-! The declarations of a schema file grouped by version: each version once, at its first spelling,
with all its definitions in the order of the file. -/

namespace SchemaUplift

/-! ### Lists with repetitions erased -/

section EraseDups

variable {α : Type} [BEq α]

/-- Erasing repetitions adds nothing. -/
theorem mem_of_mem_eraseDups {item : α} : ∀ {items : List α}, item ∈ items.eraseDups → item ∈ items
  | [], member => by simp at member
  | first :: rest, member => by
    -- What is left behind the first item is among the items that are not equal to it.
    rw [List.eraseDups_cons] at member
    rcases List.mem_cons.1 member with same | member
    · simp [same]
    · have kept := mem_of_mem_eraseDups member
      simp [List.mem_of_mem_filter kept]
termination_by items => items.length
decreasing_by exact Nat.lt_succ_of_le (List.length_filter_le _ _)

/-- No two items that are left are equal. -/
theorem pairwise_eraseDups [EquivBEq α] :
    ∀ items : List α, items.eraseDups.Pairwise fun a b => ¬ a == b
  | [] => by simp
  | first :: rest => by
    rw [List.eraseDups_cons]
    -- What is left behind the first item passed the test of being different from it.
    refine .cons (fun item member same => ?_) (pairwise_eraseDups _)
    have kept := (List.mem_filter.1 (mem_of_mem_eraseDups member)).2
    simp [BEq.symm same] at kept
termination_by items => items.length
decreasing_by exact Nat.lt_succ_of_le (List.length_filter_le _ _)

/-- For every item an equal one is left. -/
theorem exists_mem_eraseDups [EquivBEq α] {item : α} :
    ∀ {items : List α}, item ∈ items → ∃ kept ∈ items.eraseDups, item == kept
  | first :: rest, member => by
    rw [List.eraseDups_cons]
    -- An item equal to the first one has it for its representative.
    by_cases same : item == first
    · exact ⟨first, by simp, same⟩
    · -- An item equal to the first is represented by it, and others are looked for behind it.
      have later : item ∈ rest.filter fun other => !other == first := by
        rcases List.mem_cons.1 member with isFirst | member
        · exact absurd (isFirst ▸ BEq.rfl) same
        · exact List.mem_filter.2 ⟨member, by simpa using same⟩
      obtain ⟨kept, keptMember, equal⟩ := exists_mem_eraseDups later
      exact ⟨kept, List.mem_cons_of_mem _ keptMember, equal⟩
termination_by items => items.length
decreasing_by exact Nat.lt_succ_of_le (List.length_filter_le _ _)

end EraseDups

/-! ### Reading the versions -/

namespace SchemaFile

/-- Declarations with their versions read; those with a misspelled version are passed over. -/
def wellSpelled (versions : List (String × VersionDefinition)) :
    List (Version × VersionDefinition) :=
  versions.filterMap fun entry =>
    (Version.read entry.1).toOption.map fun version => (version, entry.2)

/-- Well spelled versions are all read. -/
theorem readVersions_of_wellSpelled {versions : List (String × VersionDefinition)}
    (spelled : ∀ entry ∈ versions, ∃ version, Version.read entry.1 = .ok version) :
    readVersions versions = .ok (wellSpelled versions) := by
  -- The reader goes past each version, as it is well spelled.
  induction versions with
  | nil => rfl
  | cons entry rest ih =>
    obtain ⟨⟨version, read⟩, others⟩ := List.forall_mem_cons.1 spelled
    simp [readVersions, wellSpelled, read, ih others, Bind.bind, Except.bind, Pure.pure,
      Except.pure, Except.toOption]

/-- Versions that can be read are well spelled. -/
theorem wellSpelled_of_readVersions {versions : List (String × VersionDefinition)}
    {declared : List (Version × VersionDefinition)} (read : readVersions versions = .ok declared) :
    ∀ entry ∈ versions, ∃ version, Version.read entry.1 = .ok version := by
  -- The reader goes past a version only if it is well spelled.
  induction versions generalizing declared with
  | nil => simp
  | cons entry rest ih =>
    simp only [readVersions] at read
    split at read
    · rename_i version first
      -- The first version is read, and the others are as well.
      cases others : readVersions rest with
      | error cause => simp [others, Bind.bind, Except.bind] at read
      | ok declared => exact List.forall_mem_cons.2 ⟨⟨version, first⟩, ih others⟩
    · -- The first version cannot be read, so that nothing is.
      simp [throw, throwThe, MonadExceptOf.throw] at read

/-! ### Definitions by version -/

/-- The definitions declared for a version, however it is spelled. -/
def definitionsOf (version : Version) (declared : List (Version × VersionDefinition)) :
    List VersionDefinition :=
  (declared.filter (version == ·.1)).map (·.2)

/-- Adding definitions one by one to groups collects those of the first group under its version,
and passes the others on. -/
theorem foldl_addDefinition (version : Version) (definitions : List VersionDefinition)
    (groups : List (Version × List VersionDefinition))
    (declared : List (Version × VersionDefinition)) :
    declared.foldl (fun groups entry => addDefinition entry.1 entry.2 groups)
        ((version, definitions) :: groups) =
      (version, definitions ++ definitionsOf version declared) ::
        (declared.filter fun entry => !version == entry.1).foldl
          (fun groups entry => addDefinition entry.1 entry.2 groups) groups := by
  -- The induction looks at the first declaration, which is of the version or is not.
  induction declared generalizing definitions groups with
  | nil => simp [definitionsOf]
  | cons entry rest ih =>
    rw [List.foldl_cons, addDefinition]
    -- The definition joins the first group, or is passed on.
    by_cases same : version == entry.1
    · rw [if_pos same, ih]
      simp [definitionsOf, same]
    · rw [if_neg same, ih]
      simp [definitionsOf, same]

/-- The definitions of a version are not affected by declarations of another version. -/
theorem definitionsOf_filter {version other : Version} (different : ¬ other == version)
    (declared : List (Version × VersionDefinition)) :
    definitionsOf version (declared.filter fun entry => !other == entry.1) =
      definitionsOf version declared := by
  -- A declaration of the version cannot be one of the other version too.
  have apart (entry : Version × VersionDefinition) :
      ((version == entry.1) && !other == entry.1) = (version == entry.1) := by
    cases same : version == entry.1 with
    | false => rfl
    | true =>
      have : (other == entry.1) = false := by
        rw [← BEq.congr_right same]
        simpa using different
      simp [this]
  -- The two tests are one.
  simp only [definitionsOf, List.filter_filter, apart]

/-- The groups are the distinct versions in the order of their first declarations, each with its
definitions. -/
theorem groupVersions_eq : ∀ declared : List (Version × VersionDefinition),
    groupVersions declared = (declared.map (·.1)).eraseDups.map fun version =>
      (version, definitionsOf version declared)
  | [] => rfl
  | (version, definition) :: rest => by
    have others := groupVersions_eq (rest.filter fun entry => !version == entry.1)
    -- The first declaration makes a group, which collects the others of its version.
    have first : groupVersions ((version, definition) :: rest) =
        (version, definition :: definitionsOf version rest) ::
          groupVersions (rest.filter fun entry => !version == entry.1) :=
      foldl_addDefinition version [definition] [] rest
    -- The versions left for later groups are those of the declarations passed on.
    have left : (rest.map (·.1)).filter (fun other => !other == version) =
        (rest.filter fun entry => !version == entry.1).map (·.1) := by
      simp only [List.filter_map, Function.comp_def, BEq.comm]
    -- What is left is a comparison group by group.
    rw [first, others, List.map_cons, List.eraseDups_cons, left, List.map_cons]
    congr 1
    · simp [definitionsOf]
    · -- Later groups are of other versions, which the first declarations have no part in.
      refine List.map_congr_left fun other member => ?_
      have kept := mem_of_mem_eraseDups member
      simp only [List.mem_map, List.mem_filter] at kept
      obtain ⟨entry, ⟨-, different⟩, rfl⟩ := kept
      have different : ¬ version == entry.1 := by simpa using different
      rw [definitionsOf_filter different]
      simp [definitionsOf, BEq.comm.trans (Bool.not_eq_true _ ▸ different)]
termination_by declared => declared.length
decreasing_by exact Nat.lt_succ_of_le (List.length_filter_le _ _)

end SchemaFile

end SchemaUplift
