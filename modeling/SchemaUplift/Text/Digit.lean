/-! Digits of bases up to sixteen, the numbers that they spell, and bounds on such numbers. -/

namespace SchemaUplift.Text

/-- The value of a digit; those from ten on are letters of either case. -/
def digit? (c : Char) : Option Nat :=
  if c.isDigit then some (c.toNat - '0'.toNat)
  else if 'a' ≤ c && c ≤ 'f' then some (c.toNat - 'a'.toNat + 10)
  else if 'A' ≤ c && c ≤ 'F' then some (c.toNat - 'A'.toNat + 10)
  else none

/-- The number that digits of a base spell after digits of the given value. -/
def numberFrom? (base value : Nat) : List Char → Option Nat
  | [] => some value
  | c :: rest =>
    match digit? c with
    | some digit => if digit < base then numberFrom? base (value * base + digit) rest else none
    | none => none

/-- The number that at least one digit of a base spells. -/
def number? (base : Nat) (chars : List Char) : Option Nat :=
  if chars.isEmpty then none else numberFrom? base 0 chars

/-- The least number of more than the given number of binary digits. -/
def bitBound (bits : Nat) : Nat := Nat.pow 2 bits

end SchemaUplift.Text
