import SchemaUplift.Decimal.Positional
import SchemaUplift.Text.Utf8

/-! Attribute values and attributes. -/

namespace SchemaUplift

/-- The value of an attribute or the body of a log record. -/
inductive Value where
  /-- There is no value object. -/
  | absent
  /-- A value object that holds nothing. -/
  | empty
  /-- A text. -/
  | string (content : String)
  /-- A truth value. -/
  | bool (flag : Bool)
  /-- A 64-bit integer. -/
  | int (number : Int64)
  /-- A floating-point number. -/
  | double (number : Float)
  /-- Raw bytes. -/
  | bytes (raw : List UInt8)
  /-- A list of values. -/
  | array (items : List Value)
  /-- A list of keys with values. -/
  | kvlist (entries : List (String × Value))

namespace Value

instance : Inhabited Value := ⟨absent⟩

mutual

/-- Whether two values are equal; numbers compare as numbers, so NaN is equal to nothing and the
two zeros are equal. -/
def same : Value → Value → Bool
  | .absent, .absent => true
  | .empty, .empty => true
  | .string a, .string b => a == b
  | .bool a, .bool b => a == b
  | .int a, .int b => a == b
  | .double a, .double b => a == b
  | .bytes a, .bytes b => a == b
  | .array a, .array b => sameItems a b
  | .kvlist a, .kvlist b => sameEntries a b
  | _, _ => false

/-- Whether two lists hold equal values at equal positions. -/
def sameItems : List Value → List Value → Bool
  | [], [] => true
  | a :: as, b :: bs => same a b && sameItems as bs
  | _, _ => false

/-- Whether two lists hold equal keys with equal values at equal positions. -/
def sameEntries : List (String × Value) → List (String × Value) → Bool
  | [], [] => true
  | (k, a) :: as, (l, b) :: bs => k == l && same a b && sameEntries as bs
  | _, _ => false

end

instance : BEq Value := ⟨same⟩

/-- The text by which a value is matched: texts as they are, numbers in decimal, bytes as UTF-8,
nothing as the empty text, and containers by the name of their kind alone. -/
def text : Value → String
  | .absent => ""
  | .empty => ""
  | .string content => content
  | .bool flag => if flag then "true" else "false"
  | .int number => toString number.toInt
  | .double number => Decimal.positional number
  | .bytes raw => Text.decodeLossy raw
  | .array _ => "[array]"
  | .kvlist _ => "[kvlist]"

end Value

/-- A key with its value. -/
structure Attribute where
  /-- The key. -/
  key : String
  /-- The value. -/
  value : Value

/-- Attributes are equal when their keys are and their values compare as equal. -/
instance : BEq Attribute := ⟨fun a b => a.key == b.key && a.value == b.value⟩

/-- The attributes of an entity, in order; keys may repeat. -/
abbrev Attributes := List Attribute

/-- Whether some attribute has the key. -/
def Attributes.hasKey (attributes : Attributes) (key : String) : Bool :=
  attributes.any (·.key == key)

end SchemaUplift
