import TestChain.Json.Basic
import TestChain.Text.Digits

/-!
# Scalars and their tags

A plain scalar of a YAML text is a bare word whose type is settled by the core schema: it is null, a
truth value, a whole number, a double or else a text. `Scalar.ofWord` settles it; the readers of the
single types (`isNull`, `bool?`, `nat?`, `int?`) are used where the type is known already. A `Tag`
in front of a scalar settles its type instead (`Scalar.ofTagged?`).
-/

namespace TestChain

/-- What a bare word stands for. -/
inductive Scalar where
  /-- The absent value. -/
  | null
  /-- A truth value. -/
  | bool (value : Bool)
  /-- A number of 64 bits or a finite double. -/
  | num (value : Number)
  /-- Infinity, or no number. -/
  | notFinite
  /-- A whole number of more than 64 bits. -/
  | tooLarge
  /-- A text. -/
  | text

namespace Scalar

/-- Whether a word is one of the spellings of null, the empty one included. -/
def isNull (s : String) : Bool :=
  s = "" || s = "~" || s = "null" || s = "Null" || s = "NULL"

/-- The truth value that a word spells. -/
def bool? (s : String) : Option Bool :=
  if s = "true" || s = "True" || s = "TRUE" then some true
  else if s = "false" || s = "False" || s = "FALSE" then some false
  else none

/-- A text without a sign at its front. -/
def dropSign : List Char → List Char
  | '+' :: rest => rest
  | '-' :: rest => rest
  | s => s

/-- Whether a word is all digits but begins with a zero that does not count. -/
def isZeroPadded (s : List Char) : Bool :=
  match dropSign s with
  | '0' :: c :: rest => (c :: rest).all Char.isDigit
  | _ => false

/-- Reads the digits of a magnitude: in base 16, 8 or 2 after `0x`, `0o` or `0b`, else in base 10.
-/
def magnitude? (padded : Bool) (s : List Char) : Option Nat :=
  let decimal := if padded then none else Text.readNat? 10 s
  let based (base : Nat) (rest : List Char) : Option Nat := (Text.readNat? base rest).or decimal
  match s with
  | '0' :: 'x' :: rest => based 16 rest
  | '0' :: 'o' :: rest => based 8 rest
  | '0' :: 'b' :: rest => based 2 rest
  | _ => decimal

/-- The whole number that a word spells. -/
def int? (s : List Char) : Option Int :=
  let padded := isZeroPadded s
  match s with
  | '-' :: rest => (magnitude? padded rest).map fun n => -(n : Int)
  | '+' :: rest => (magnitude? padded rest).map fun n => (n : Int)
  | s => (magnitude? padded s).map fun n => (n : Int)

/-- The number that a word spells without a minus sign. -/
def nat? (s : List Char) : Option Nat :=
  match s with
  | '-' :: _ => none
  | s => (int? s).map Int.toNat

/-- Splits a text at the first character with a property. -/
def splitFirst (p : Char → Bool) (s : List Char) : List Char × Option (List Char) :=
  match s.dropWhile (!p ·) with
  | [] => (s, none)
  | _ :: rest => (s.takeWhile (!p ·), some rest)

/-- The exponent that a text spells: digits after a sign or not. -/
def exponent? (s : List Char) : Option Int :=
  match s with
  | '-' :: rest => (Text.readNat? 10 rest).map fun n => -(n : Int)
  | s => (Text.readNat? 10 (Text.dropPlus s)).map fun n => (n : Int)

/-- The nearest double to a magnitude `digits * 10 ^ exponent`. Far beyond the ends of the range the
exponent does not count any more. -/
def nearest (digits : Nat) (exponent : Int) : Float :=
  if digits = 0 then 0
  else if 400 < exponent then Float.ofScientific digits false 400
  else if exponent < -400 - (digits.log2 : Int) then 0
  else if 0 ≤ exponent then Float.ofScientific digits false exponent.toNat
  else Float.ofScientific digits true (-exponent).toNat

/-- The double whose magnitude a text spells, with a point and an exponent or without. -/
def magnitudeFloat? (s : List Char) : Option Float :=
  let (mantissa, exponent) := splitFirst (fun c => c = 'e' || c = 'E') s
  let (whole, fraction) := splitFirst (· = '.') mantissa
  let fraction := fraction.getD []
  let digits := whole ++ fraction
  match Text.readNat? 10 digits, (exponent.map exponent?).getD (some 0) with
  | some n, some e =>
    if digits.all Char.isDigit then some (nearest n (e - fraction.length)) else none
  | _, _ => none

/-- The finite double that a word spells. -/
def float? (s : List Char) : Option Float :=
  let x := match s with
    | '-' :: rest => (magnitudeFloat? rest).map (- ·)
    | '+' :: rest => magnitudeFloat? rest
    | s => magnitudeFloat? s
  x.bind fun v => if v.isFinite then some v else none

/-- The spellings of infinity and of what is no number. -/
def notFiniteTexts : List String :=
  [".inf", ".Inf", ".INF", "+.inf", "+.Inf", "+.INF", "-.inf", "-.Inf", "-.INF",
   ".nan", ".NaN", ".NAN"]

/-- Whether a whole number fits in 128 bits, signed or unsigned. -/
abbrev fitsWide (n : Int) : Prop :=
  -170141183460469231731687303715884105728 ≤ n ∧ n < 340282366920938463463374607431768211456

/-- The number that a word spells: one of 64 bits, or else one that is too large as long as it fits
in 128 bits. -/
def ofInt? (n : Int) : Option Scalar :=
  match Number.ofInt? n with
  | some value => some (.num value)
  | none => if fitsWide n then some .tooLarge else none

/-- The double that a word spells. -/
def ofDouble? (s : String) : Option Scalar :=
  if notFiniteTexts.contains s then some .notFinite
  else (float? s.toList).map fun x => .num (.float x)

/-- What a word stands for by the core schema. Digits behind a zero that does not count are a text.
-/
def ofWord (s : String) : Scalar :=
  if isNull s then .null
  else match bool? s with
    | some b => .bool b
    | none =>
      let whole := (int? s.toList).bind ofInt?
      let double := if isZeroPadded s.toList then none else ofDouble? s
      (whole.or double).getD .text

end Scalar

/-- What is said of a node in front of it. -/
inductive Tag where
  /-- A name of the document's own. -/
  | own (name : String)
  /-- A name of the document's own that is no Unicode text. -/
  | unnamed
  /-- A truth value. -/
  | bool
  /-- A whole number. -/
  | int
  /-- A double. -/
  | float
  /-- The absent value. -/
  | null
  /-- Anything else. -/
  | other
  deriving DecidableEq, Repr

namespace Tag

/-- Whether a tag is a name of the document's own. -/
def isOwn : Tag → Bool
  | .own _ => true
  | _ => false

end Tag

namespace Scalar

/-- What a scalar with a tag stands for, if it stands for anything; `bare` says that it is a bare
word. A tag of the core schema asks for its type, every other tag makes it a text. -/
def ofTagged? (tag : Tag) (bare : Bool) (s : String) : Option Scalar :=
  match tag with
  | .own _ => none
  | .unnamed => some (if bare then ofWord s else .text)
  | .bool => (bool? s).map .bool
  | .int => (int? s.toList).bind ofInt?
  | .float => ofDouble? s
  | .null => if isNull s && !s.isEmpty then some .null else none
  | .other => some .text

end Scalar

end TestChain
