import SchemaUplift.Settings.Value

/-! Tables of a settings file. Keys of several parts and headers lead to tables inside each other;
what stands in one place of the file decides what may still be added in a later one. -/

namespace SchemaUplift.SettingsFile

/-- A key: the last of its parts, and the parts before. -/
structure Key where
  /-- The parts that lead to a table, from the outermost on. -/
  path : List String
  /-- The part that the table maps to something. -/
  name : String

/-- How a table came to be. -/
inductive TableOrigin where
  /-- It has a header or braces of its own, or is the file as a whole. -/
  | own
  /-- A header leads through it. -/
  | header
  /-- A key leads through it. -/
  | key
deriving DecidableEq

/-- What a key stands for. -/
inductive Item where
  /-- A value. -/
  | value (value : SettingValue)
  /-- A table. -/
  | table (origin : TableOrigin) (entries : List (String × Item))
  /-- A list of tables, each with a header. Only the last one matters, since no other can grow. -/
  | tables (last : List (String × Item))

/-- The entries of a table. -/
abbrev Entries := List (String × Item)

namespace Entries

/-- Gives a name an item, in the place of the one that it may have had. -/
def put (entries : Entries) (name : String) (item : Item) : Entries :=
  (name, item) :: entries.filter (·.1 != name)

/-- Adds to the table at the end of a path from a table that came to be as `origin` says. Missing
tables on the way come to be as `through` says. A key leads through no table with a header of its
own. -/
def addAt? (through : TableOrigin) (add? : TableOrigin → Entries → Option Entries)
    (origin : TableOrigin) (entries : Entries) : List String → Option Entries
  | [] => add? origin entries
  | name :: path =>
    match entries.lookup name with
    | none => do
      return entries.put name (.table through (← addAt? through add? through [] path))
    | some (.table inner next) => do
      if through == .key && inner == .own then none
      else return entries.put name (.table inner (← addAt? through add? inner next path))
    | some (.tables last) => do
      return entries.put name (.tables (← addAt? through add? .own last path))
    | some (.value _) => none

/-- Gives a key a value in a table that came to be as `origin` says. The key must be new. Where its
path has parts, they have to lead to a table that only keys lead to. -/
def assign? (origin : TableOrigin) (entries : Entries) (key : Key) (value : SettingValue) :
    Option Entries :=
  let add? (origin : TableOrigin) (entries : Entries) : Option Entries :=
    if (origin == .key) == key.path.isEmpty || (entries.lookup key.name).isSome then none
    else some (entries.put key.name (.value value))
  addAt? .key add? origin entries key.path

/-- Gives a header its table, or its list a further one if `listed` holds. A table has one header
at most. -/
def open? (listed : Bool) (entries : Entries) (key : Key) : Option Entries :=
  let add? (_ : TableOrigin) (entries : Entries) : Option Entries :=
    match listed, entries.lookup key.name with
    | true, none | true, some (.tables _) => some (entries.put key.name (.tables []))
    | false, none => some (entries.put key.name (.table .own []))
    | false, some (.table .header inner) => some (entries.put key.name (.table .own inner))
    | _, _ => none
  addAt? .header add? .own entries key.path

end Entries

end SchemaUplift.SettingsFile
