import TestChain.Json.Basic
import TestChain.Number.Shortest
import TestChain.Text.Digits

/-!
# Writing JSON

`Json.compact` writes a value without blanks and `Json.pretty` with one member or item a line,
indented by two blanks a level. Only the quote, the backslash and controls are escaped in texts. A
double is written with the fewest digits that read back: with a point when the exponent of its first
digit lies between -5 and 15, and with an exponent otherwise.
-/

namespace TestChain

/-- The exponents of the first digit at which a double is written with a point only. -/
def isPositional (exponent : Int) : Bool :=
  -5 ≤ exponent && exponent ≤ 15

/-- The digits of a positive double with a point. -/
def positionalText (ds : List Char) (exponent : Int) : List Char :=
  if exponent < 0 then '0' :: '.' :: List.replicate (-exponent - 1).toNat '0' ++ ds
  else
    let count := exponent.toNat + 1
    if ds.length ≤ count then ds ++ List.replicate (count - ds.length) '0' ++ ['.', '0']
    else ds.take count ++ '.' :: ds.drop count

/-- The digits of a positive double with an exponent. -/
def exponentText (ds : List Char) (exponent : Int) : List Char :=
  let mantissa := match ds with
    | [] => []
    | [d] => [d]
    | d :: rest => d :: '.' :: rest
  let sign := if exponent < 0 then '-' else '+'
  mantissa ++ 'e' :: sign :: Text.natDigits 10 exponent.natAbs

/-- The text of a double. -/
def floatText (x : Float) : List Char :=
  let sign := if x.toBits >>> 63 = 1 then ['-'] else []
  if x == 0 then sign ++ ['0', '.', '0']
  else
    let (ds, exponent) := Shortest.digits x
    sign ++ if isPositional exponent then positionalText ds exponent else exponentText ds exponent

/-- The text of a whole number. -/
def intText (n : Int) : List Char :=
  if n < 0 then '-' :: Text.natDigits 10 n.natAbs else Text.natDigits 10 n.natAbs

/-- The text of a number. -/
def Number.text : Number → List Char
  | .whole n _ => intText n
  | .float x => floatText x

/-- A character as it stands in a JSON text. -/
def escapeChar (c : Char) : List Char :=
  if c = '"' then ['\\', '"']
  else if c = '\\' then ['\\', '\\']
  else if c = '\x08' then ['\\', 'b']
  else if c = '\x0c' then ['\\', 'f']
  else if c = '\n' then ['\\', 'n']
  else if c = '\r' then ['\\', 'r']
  else if c = '\t' then ['\\', 't']
  else if c.toNat < 0x20 then '\\' :: 'u' :: Text.padded 16 4 c.toNat
  else [c]

/-- A text between quotes. -/
def quoteText (s : String) : List Char :=
  '"' :: s.toList.flatMap escapeChar ++ ['"']

namespace Json

mutual

/-- A value without blanks. -/
def compactChars : Json → List Char
  | .null => ['n', 'u', 'l', 'l']
  | .bool true => ['t', 'r', 'u', 'e']
  | .bool false => ['f', 'a', 'l', 's', 'e']
  | .num n => n.text
  | .str s => quoteText s
  | .arr [] => ['[', ']']
  | .arr (j :: rest) => '[' :: compactChars j ++ compactItems rest
  | .obj [] => ['\x7b', '\x7d']
  | .obj ((n, j) :: rest) => '\x7b' :: quoteText n ++ ':' :: compactChars j ++ compactMembers rest

/-- The items after the first, up to the closing bracket. -/
def compactItems : List Json → List Char
  | [] => [']']
  | j :: rest => ',' :: compactChars j ++ compactItems rest

/-- The members after the first, up to the closing brace. -/
def compactMembers : List (String × Json) → List Char
  | [] => ['\x7d']
  | (n, j) :: rest => ',' :: quoteText n ++ ':' :: compactChars j ++ compactMembers rest

end

/-- A line break and the indentation of a level. -/
def newLine (level : Nat) : List Char :=
  '\n' :: List.replicate (2 * level) ' '

mutual

/-- A value that starts at the given level, with one item or member a line. -/
def prettyChars (level : Nat) : Json → List Char
  | .arr (j :: rest) =>
    '[' :: newLine (level + 1) ++ prettyChars (level + 1) j ++ prettyItems level rest
  | .obj ((n, j) :: rest) =>
    '\x7b' :: newLine (level + 1) ++ quoteText n ++ ':' :: ' ' :: prettyChars (level + 1) j ++
      prettyMembers level rest
  | j => compactChars j

/-- The items after the first of an array at the given level, up to its bracket. -/
def prettyItems (level : Nat) : List Json → List Char
  | [] => newLine level ++ [']']
  | j :: rest => ',' :: newLine (level + 1) ++ prettyChars (level + 1) j ++ prettyItems level rest

/-- The members after the first of an object at the given level, up to its brace. -/
def prettyMembers (level : Nat) : List (String × Json) → List Char
  | [] => newLine level ++ ['\x7d']
  | (n, j) :: rest =>
    ',' :: newLine (level + 1) ++ quoteText n ++ ':' :: ' ' :: prettyChars (level + 1) j ++
      prettyMembers level rest

end

/-- A value as text without blanks. -/
def compact (j : Json) : String :=
  String.ofList j.compactChars

/-- A value as text with one item or member a line. -/
def pretty (j : Json) : String :=
  String.ofList (j.prettyChars 0)

end Json

end TestChain
