import SchemaUplift.Request.Conversion
import SchemaUplift.Schema.OfFile
import SchemaUplift.SchemaFile.Reading
import SchemaUplift.Settings.Basic

/-! Conversions set up from settings. -/

namespace SchemaUplift

/-- Why a conversion cannot be set up. -/
inductive SetupError where
  /-- No schema file is set. -/
  | noSchemaFile
  /-- The version for data that does not tell its own is misspelled. -/
  | invalidFallback (text : String) (cause : VersionError)
  /-- The schema file cannot be read. -/
  | unreadableFile (path : String)
  /-- The schema file is malformed. -/
  | malformedFile (path : String)
  /-- The schema cannot be used. -/
  | unusableSchema (cause : SchemaError)
deriving DecidableEq, Repr

/-- The message for a conversion that cannot be set up. -/
def SetupError.message : SetupError → String
  | .noSchemaFile => "configuration error: schema_file is not set"
  | .invalidFallback text cause =>
    s!"configuration error: invalid fallback_version {Text.quoted text}: {cause.message}"
  | .unreadableFile path => s!"cannot read {Text.quoted path}"
  | .malformedFile path => s!"{Text.quoted path} is not a schema file"
  | .unusableSchema cause => s!"compile error: {cause.message}"

/-- Sets up the conversion that settings describe, given what files hold. The settings are checked
before any file is read. -/
def RequestConversion.ofSettings (settings : Settings) (contents? : String → Option String) :
    Except SetupError RequestConversion := do
  let path ← match settings.schemaFile with
    | some path => pure path
    | none => throw .noSchemaFile
  let fallback ← (Version.read settings.fallbackVersion).mapError
    (.invalidFallback settings.fallbackVersion)
  let text ← match contents? path with
    | some text => pure text
    | none => throw (.unreadableFile path)
  let file ← match SchemaFile.read? text with
    | some file => pure file
    | none => throw (.malformedFile path)
  let schema ← (Schema.ofFile file).mapError .unusableSchema
  return .byUrl schema fallback settings.redirectsUrls

end SchemaUplift
