import TestChain.Text.Visible

/-!
# Quoted texts

`quoted` writes a text between double quotes and `quotedChar` a character between single quotes, as
diagnostics show them: the quote itself and the backslash get a backslash, the common controls their
letter, and every other character that is not visible its number in hexadecimal digits.
-/

namespace TestChain.Text

/-- A number in lower-case hexadecimal digits, without leading zeros. -/
def hexNumber (n : Nat) : String :=
  String.ofList (Nat.toDigits 16 n)

/-- A character as it stands between the quotes `quote`. -/
def escaped (quote : Char) (c : Char) : String :=
  if c = quote || c = '\\' then String.ofList ['\\', c]
  else if c = '\x00' then "\\0"
  else if c = '\t' then "\\t"
  else if c = '\n' then "\\n"
  else if c = '\r' then "\\r"
  else if isVisible c then c.toString
  else "\\u\x7b" ++ hexNumber c.toNat ++ "\x7d"

/-- A text between double quotes. -/
def quoted (s : String) : String :=
  "\"" ++ String.join (s.toList.map (escaped '"')) ++ "\""

/-- A character between single quotes. -/
def quotedChar (c : Char) : String :=
  "'" ++ escaped '\'' c ++ "'"

end TestChain.Text
