import BorderSync.Text.Ranges
/-
# BorderSync.Text.Quoted -- texts in double quotes, and lists of them

Messages show a text between double quotes. Inside, a quote or backslash is preceded by a
backslash, the usual control characters have their short escapes, and every character that could
not be seen on its own (an extending mark, or an unprintable code point) is written as its
hexadecimal code point in braces.
-/

namespace BorderSync.Text

/-- Lower-case hexadecimal digits of `n`, at least one. -/
def hexDigits (n : Nat) : List Char :=
  Nat.toDigits 16 n

/-- The code point of `c` as an escape, e.g. 7f between braces after `\u`. -/
def codePointEscape (c : Char) : List Char :=
  ['\\', 'u', '\x7b'] ++ hexDigits c.toNat ++ ['\x7d']

/-- How one character is written between double quotes. -/
def quoteChar (c : Char) : List Char :=
  if c = '\x00' then ['\\', '0']
  else if c = '\t' then ['\\', 't']
  else if c = '\n' then ['\\', 'n']
  else if c = '\r' then ['\\', 'r']
  else if c = '"' then ['\\', '"']
  else if c = '\\' then ['\\', '\\']
  else if 0x20 ≤ c.toNat ∧ c.toNat < 0x7f then [c]
  else if Ranges.covers Ranges.extending c || Ranges.covers Ranges.unprintable c then
    codePointEscape c
  else [c]

/-- `s` between double quotes. -/
def quote (s : String) : String :=
  String.ofList ('"' :: s.toList.flatMap quoteChar ++ ['"'])

/-- A text that may be missing: `Some("..")` or `None`. -/
def quoteOption : Option String → String
  | none => "None"
  | some s => "Some(" ++ quote s ++ ")"

/-- Items between square brackets, separated by a comma and a space. -/
def bracketed (items : List String) : String :=
  "[" ++ String.intercalate ", " items ++ "]"

/-- A list of quoted texts. -/
def quoteList (items : List String) : String :=
  bracketed (items.map quote)

end BorderSync.Text
