import Bitcoin.Text.Visible

/-! # Quoted characters and texts

The form in which a message shows a piece of its input: between delimiters, with the delimiter itself,
the backslash and every character that cannot be shown escaped.
-/

namespace Bitcoin.Quoted

/-- The escape of a character between two `delimiter`s. Other invisible characters are written by
    code point, in lower case and without leading zeros. -/
def escape (delimiter : Char) (c : Char) : List Char :=
  if c = delimiter ∨ c = '\\' then ['\\', c]
  else if c = '\t' then ['\\', 't']
  else if c = '\r' then ['\\', 'r']
  else if c = '\n' then ['\\', 'n']
  else if c = '\x00' then ['\\', '0']
  else if Text.isVisible c then [c]
  else "\\u\x7b".toList ++ Nat.toDigits 16 c.toNat ++ ['\x7d']

def character (c : Char) : String :=
  String.ofList ('\'' :: escape '\'' c ++ ['\''])

def text (s : String) : String :=
  String.ofList ('"' :: s.toList.flatMap (escape '"') ++ ['"'])

end Bitcoin.Quoted
