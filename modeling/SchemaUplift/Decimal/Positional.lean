import SchemaUplift.Decimal.Shortest

/-! Floating-point numbers as text: the shortest digits, always written positionally. -/

namespace SchemaUplift.Decimal

/-- The digits with their point in place; an integer has no point, and a fraction starts with
zero. -/
def Digits.positional (decimal : Digits) : List Char :=
  let digits := Nat.toDigits 10 decimal.digits
  let whole := digits.length + decimal.exponent
  if 0 ≤ decimal.exponent then digits ++ List.replicate decimal.exponent.toNat '0'
  else if 0 < whole then digits.take whole.toNat ++ '.' :: digits.drop whole.toNat
  else ['0', '.'] ++ List.replicate (-whole).toNat '0' ++ digits

/-- The text of a floating-point number: sign, shortest digits and never an exponent; zero keeps
its sign, and what is no finite number is written by name. -/
def positional (x : Float) : String :=
  let bits := x.toBits
  let magnitude := bits &&& 0x7FFFFFFFFFFFFFFF
  let sign := if bits == magnitude then [] else ['-']
  if magnitude > 0x7FF0000000000000 then "NaN"
  else if magnitude == 0x7FF0000000000000 then String.ofList (sign ++ ['i', 'n', 'f'])
  else if magnitude == 0 then String.ofList (sign ++ ['0'])
  else String.ofList (sign ++ (Binary.ofBits magnitude).shortest.positional)

end SchemaUplift.Decimal
