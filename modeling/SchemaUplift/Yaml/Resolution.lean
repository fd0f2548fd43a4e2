import SchemaUplift.Decimal.Literal
import SchemaUplift.Yaml.Node

/-! What a plain scalar stands for: nothing, a truth value, a number or, failing these, a text. -/

namespace SchemaUplift.Yaml

/-- What a scalar stands for. -/
inductive Meaning where
  /-- It stands for nothing. -/
  | null
  /-- It is a truth value. -/
  | truth
  /-- It is an integer. -/
  | integer (value : Int)
  /-- It is a floating-point number. -/
  | float
  /-- It is a text. -/
  | text
deriving DecidableEq, Repr

namespace Meaning

/-- The spellings of truth values. -/
def truthSpellings : List String := ["true", "True", "TRUE", "false", "False", "FALSE"]

/-- The base that a letter after a zero announces. -/
def base? : Char → Option Nat
  | 'x' => some 16
  | 'o' => some 8
  | 'b' => some 2
  | _ => none

/-- Reads an integer without its sign: in the base that a letter after a zero announces, else in
decimal without idle zeros in front. -/
def magnitude? : List Char → Option Nat
  | '0' :: c :: rest => (base? c).bind fun base => Text.number? base rest
  | chars => Text.number? 10 chars

/-- Reads an integer of at most 128 bits. -/
def integer? : List Char → Option Int
  | '-' :: chars => (magnitude? chars).bind fun number =>
    if number ≤ Text.bitBound 127 then some (-(number : Int)) else none
  | '+' :: chars => (magnitude? chars).bind fun number =>
    if number < Text.bitBound 128 then some number else none
  | chars => (magnitude? chars).bind fun number =>
    if number < Text.bitBound 128 then some number else none

/-- Whether a text consists of digits with an idle zero in front, after an optional sign. -/
def hasIdleZero : List Char → Bool
  | '-' :: '0' :: rest => !rest.isEmpty && rest.all Char.isDigit
  | '+' :: '0' :: rest => !rest.isEmpty && rest.all Char.isDigit
  | '0' :: rest => !rest.isEmpty && rest.all Char.isDigit
  | _ => false

/-- The spellings of numbers that are infinite or no number. -/
def specialSpellings : List String :=
  [".inf", ".Inf", ".INF", "+.inf", "+.Inf", "+.INF", "-.inf", "-.Inf", "-.INF", ".nan", ".NaN",
   ".NAN"]

/-- Whether a text spells a floating-point number; a decimal beyond all finite ones does not. -/
def isFloat (text : String) : Bool :=
  specialSpellings.contains text ||
    !hasIdleZero text.toList && (Decimal.Literal.magnitude? text.toList).any (·.isFinite)

/-- What a plain scalar with the given text stands for. -/
def ofPlain (text : String) : Meaning :=
  if Node.nullSpellings.contains text then .null
  else if truthSpellings.contains text then .truth
  else
    match integer? text.toList with
    | some value => .integer value
    | none => if isFloat text then .float else .text

/-- Whether an integer has more than 64 bits. -/
def isWide : Meaning → Bool
  | .integer value => value < -(Text.bitBound 63 : Int) || (Text.bitBound 64 : Int) ≤ value
  | _ => false

end Meaning

namespace Node

/-- The text of a scalar that stands for a text. -/
def string? : Node → Option String
  | .scalar text plain => if plain && Meaning.ofPlain text != .text then none else some text
  | _ => none

mutual

/-- Whether a node nests no deeper than the given number of collections and holds no integer of
more than 64 bits. -/
def fits : Nat → Node → Bool
  | _, .scalar text plain => !(plain && (Meaning.ofPlain text).isWide)
  | 0, .sequence _ => false
  | 0, .mapping _ => false
  | depth + 1, .sequence items => itemsFit depth items
  | depth + 1, .mapping entries => entriesFit depth entries

/-- Whether all items fit. -/
def itemsFit (depth : Nat) : List Node → Bool
  | [] => true
  | item :: rest => fits depth item && itemsFit depth rest

/-- Whether all keys and values fit. -/
def entriesFit (depth : Nat) : List (Node × Node) → Bool
  | [] => true
  | (key, value) :: rest => fits depth key && fits depth value && entriesFit depth rest

end

end Node

end SchemaUplift.Yaml
