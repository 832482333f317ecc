import ParallelFilter.Text.Quoted

/-! The reader of quoted text. It takes one character after another and knows of each what it stands
in: the text itself, an escape, or the digits of a code point. The closing quote has to be the last
character. -/

namespace ParallelFilter.Text

/-- What the next character of a quoted text belongs to. -/
inductive Reading where
  | plain
  /-- A backslash came before it. -/
  | escaped
  /-- It opens the digits of a code point. -/
  | opening
  /-- It is a digit of a code point, or ends one. The digits before it have this value. -/
  | code (value : Nat)

/-- The character that a single one behind a backslash stands for. -/
def unescaped? (c : Char) : Option Char :=
  if c = '\x22' ∨ c = '\x5c' then some c
  else if c = 't' then some '\t'
  else if c = 'r' then some '\r'
  else if c = 'n' then some '\n'
  else if c = '0' then some '\x00'
  else none

/-- The value of a hexadecimal digit in lower case. -/
def hexValue? (c : Char) : Option Nat :=
  if c.isDigit then some (c.toNat - '0'.toNat)
  else if 'a' ≤ c ∧ c ≤ 'f' then some (c.toNat - 'a'.toNat + 10)
  else none

/-- The character with a code point; surrogates and what lies beyond the last plane have none. -/
def ofCode? (code : Nat) : Option Char :=
  if code.isValidChar then some (.ofNat code) else none

/-- The rest of a text, read up to the closing quote. -/
def unquoteFrom : Reading → List Char → Option (List Char)
  | _, [] => none
  | .plain, c :: cs =>
    if c = '\x22' then (if cs = [] then some [] else none)
    else if c = '\x5c' then unquoteFrom .escaped cs
    else (unquoteFrom .plain cs).map (c :: ·)
  | .escaped, c :: cs =>
    if c = 'u' then unquoteFrom .opening cs
    else (unescaped? c).bind fun meant => (unquoteFrom .plain cs).map (meant :: ·)
  | .opening, c :: cs => if c = '\x7b' then unquoteFrom (.code 0) cs else none
  | .code value, c :: cs =>
    if c = '\x7d' then (ofCode? value).bind fun meant => (unquoteFrom .plain cs).map (meant :: ·)
    else (hexValue? c).bind fun digit => unquoteFrom (.code (16 * value + digit)) cs

/-- The text that was quoted. -/
def unquote? : List Char → Option (List Char)
  | [] => none
  | c :: cs => if c = '\x22' then unquoteFrom .plain cs else none

end ParallelFilter.Text
