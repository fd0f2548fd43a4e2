/-! Documents of nested scalars, sequences and mappings, before anything is made of the scalars. -/

namespace SchemaUplift.Yaml

/-- One node of a document. -/
inductive Node where
  /-- A scalar as written, and whether it stood without quotes. -/
  | scalar (text : String) (plain : Bool)
  /-- A list of nodes. -/
  | sequence (items : List Node)
  /-- Keys with values, in the order in which they were written; keys may repeat. -/
  | mapping (entries : List (Node × Node))

namespace Node

/-- The node that stands where nothing was written. -/
def blank : Node := .scalar "" true

instance : Inhabited Node := ⟨blank⟩

/-- The spellings of a scalar that stands for nothing. -/
def nullSpellings : List String := ["", "~", "null", "Null", "NULL"]

/-- Whether the node stands for nothing; a quoted text never does. -/
def isNull : Node → Bool
  | .scalar text plain => plain && nullSpellings.contains text
  | _ => false

/-- The text of a scalar, as written. -/
def text? : Node → Option String
  | .scalar text _ => some text
  | _ => none

/-- The items of a sequence; where nothing was written there are none. -/
def items? : Node → Option (List Node)
  | .sequence items => some items
  | .scalar "" true => some []
  | _ => none

/-- The entries of a mapping; where nothing was written there are none. -/
def entries? : Node → Option (List (Node × Node))
  | .mapping entries => some entries
  | .scalar "" true => some []
  | _ => none

end Node

end SchemaUplift.Yaml
