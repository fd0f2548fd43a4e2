import SchemaUplift.Attempt
import SchemaUplift.AdaptiveMap
import SchemaUplift.Journal.Entry
import SchemaUplift.ConversionError
import SchemaUplift.Table

/-! Renaming attribute keys by a table, all keys at once, with a check that no two attributes end
up under one key. -/

namespace SchemaUplift

/-- An attempt at converting telemetry of type `α`. -/
abbrev Conversion (α : Type) := Attempt JournalEntry ConversionError α

/-- Old names with the new names that replace them. -/
abbrev RenameTable := Table String

namespace RenameTable

/-- The name in use after the table is applied. -/
def effective (table : RenameTable) (name : String) : String := (table.get? name).getD name

/-- What a scan over attributes has found. -/
structure Scan where
  /-- The attributes with new keys for those before the first clash. -/
  attributes : Attributes
  /-- The positions with new keys, ascending, each with its former key. -/
  renamed : List (Nat × String)
  /-- The key that two attributes claim, if two do. -/
  clash : Option String

/-- Walks over attributes from `index` on, and stops at the first whose effective key is already
claimed. -/
def scan (table : RenameTable) (claimed : AdaptiveMap Nat) (index : Nat) : Attributes → Scan
  | [] => ⟨[], [], none⟩
  | first :: rest =>
    let key := table.effective first.key
    if claimed.contains key then ⟨first :: rest, [], some key⟩
    else
      let found := table.scan (claimed.set key index) (index + 1) rest
      if table.contains first.key then
        { found with
          attributes := { first with key } :: found.attributes
          renamed := (index, first.key) :: found.renamed }
      else { found with attributes := first :: found.attributes }

/-- Gives each attribute its effective key. Attributes of which the table names none are left
alone; otherwise the first attribute whose effective key an earlier one has is a conflict, and only
the attributes before it get new keys. -/
def convert (table : RenameTable) (address : Address) (attributes : Attributes) :
    Conversion Attributes :=
  if attributes.any fun entry => table.contains entry.key then
    let found := table.scan (.withCapacity attributes.length) 0 attributes
    { value := found.attributes
      records := if found.renamed.isEmpty then [] else [.renamedKeys address found.renamed]
      failure := found.clash.map .conflict }
  else .unchanged attributes

end RenameTable

end SchemaUplift
