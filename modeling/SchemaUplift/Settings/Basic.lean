import SchemaUplift.Settings.Environment
import SchemaUplift.Settings.File
import SchemaUplift.Table

/-! Settings of a conversion, from a file and from the variables of an environment. -/

namespace SchemaUplift

/-- The settings of a conversion. -/
structure Settings where
  /-- The path of the schema file. -/
  schemaFile : Option String
  /-- The version of data that does not tell its own, as spelled. -/
  fallbackVersion : String
  /-- Whether converted data has its schema URL pointed at the latest version. -/
  redirectsUrls : Bool
deriving DecidableEq, Repr

namespace Settings

/-- The settings where none are given. -/
def standard : Settings := ⟨none, "0.0.0", true⟩

/-- Takes a setting that is a text. -/
def text? (given : Table SettingValue) (name : String) : Option (Option String) :=
  match given.get? name with
  | none => some none
  | some (.text content) => some (some content)
  | some _ => none

/-- Takes a setting that is a truth value. -/
def flag? (given : Table SettingValue) (name : String) : Option (Option Bool) :=
  match given.get? name with
  | none => some none
  | some (.flag on) => some (some on)
  | some _ => none

/-- Takes the settings from values by name. A value of the wrong kind is refused, and unknown names
are passed over. -/
def ofValues? (given : Table SettingValue) : Option Settings := do
  let fallbackVersion ← text? given "fallback_version"
  let redirectsUrls ← flag? given "rewrite_schema_url"
  return {
    schemaFile := ← text? given "schema_file"
    fallbackVersion := fallbackVersion.getD standard.fallbackVersion
    redirectsUrls := redirectsUrls.getD standard.redirectsUrls }

/-- Loads settings from the text of a file, if there is one, and from the names and texts of
variables, which come before the file. A malformed file is refused. -/
def load? (file : Option String) (environment : List (String × String)) : Option Settings := do
  let written ← match file with
    | some text => SettingsFile.read? text
    | none => some []
  ofValues? (.ofList (written ++ Environment.settings environment))

end Settings

end SchemaUplift
