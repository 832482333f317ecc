import ParallelFilter.Text.Unprintable
import ParallelFilter.Text.GraphemeExtend

/-! Quoted text. A text is written between double quotes so that it stays on one line and can be read
back: the quote and the backslash take a backslash, tab, line feed, carriage return and NUL have
letters of their own, and whatever cannot be seen by itself is written as its code point. -/

namespace ParallelFilter.Text

/-- Whether a code point lies in one of the ranges. -/
def inRanges (ranges : List (Nat × Nat)) (code : Nat) : Bool :=
  ranges.any fun range => range.1 ≤ code && code ≤ range.2

/-- Whether a character can be seen by itself. The printable characters of ASCII are settled first. -/
def isVisible (c : Char) : Bool :=
  if 0x20 ≤ c.toNat ∧ c.toNat < 0x7F then true
  else !inRanges unprintableRanges c.toNat && !inRanges graphemeExtendRanges c.toNat

/-- A code point in lower-case hexadecimal, without leading zeros. -/
def hexDigits (code : Nat) : List Char :=
  Nat.toDigits 16 code

/-- The written form of one character inside quotes. -/
def escape (c : Char) : List Char :=
  if c = '\x22' then ['\x5c', '\x22']
  else if c = '\x5c' then ['\x5c', '\x5c']
  else if c = '\t' then ['\x5c', 't']
  else if c = '\r' then ['\x5c', 'r']
  else if c = '\n' then ['\x5c', 'n']
  else if c = '\x00' then ['\x5c', '0']
  else if isVisible c then [c]
  else ['\x5c', 'u', '\x7b'] ++ hexDigits c.toNat ++ ['\x7d']

/-- The written form of a text, quotes included. -/
def quote (cs : List Char) : List Char :=
  '\x22' :: (cs.flatMap escape ++ ['\x22'])

end ParallelFilter.Text
