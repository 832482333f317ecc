/-! Numbers as they are written on a command line: ASCII digits, which a plus sign may precede. -/

namespace ParallelFilter.Text

/-- The value of a string of digits. -/
def digitsValue (digits : List Char) : Nat :=
  digits.foldl (fun value digit => 10 * value + (digit.toNat - '0'.toNat)) 0

def digits? (cs : List Char) : Option Nat :=
  if cs ≠ [] ∧ cs.all Char.isDigit then some (digitsValue cs) else none

/-- A number without a sign, or with a plus sign. -/
def number? (text : String) : Option Nat :=
  match text.toList with
  | '+' :: cs => digits? cs
  | cs => digits? cs

/-- A number that may also be written as minus zero. -/
def signedNumber? (text : String) : Option Nat :=
  match text.toList with
  | '-' :: cs => (digits? cs).filter (· = 0)
  | _ => number? text

end ParallelFilter.Text
