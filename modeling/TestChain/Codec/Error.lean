import TestChain.Text.Digits

/-!
# Errors of decoding

A text is malformed, or a type refuses a value in it for a reason. A refusal is told with its place,
as in `not a name at line 3 column 4`. The place is known inside the containers of a text
(`DecodeError.inText`), and a reason that ends in such words names its place itself
(`DecodeError.ofReason`).
-/

namespace TestChain

namespace Text

/-- Splits a text at the last place where some words, of which there are any, stand in it. -/
def splitLast? (words : List Char) : List Char → Option (List Char × List Char)
  | [] => none
  | c :: rest =>
    match splitLast? words rest with
    | some (before, after) => some (c :: before, after)
    | none =>
      if words.isPrefixOf (c :: rest) then some ([], (c :: rest).drop words.length) else none

end Text

/-- Where a value is refused. -/
inductive RefusalPlace where
  /-- It is not known. -/
  | unknown
  /-- At a line and a column. -/
  | named (line column : Nat)
  /-- At a place of the text that is read. Its line and its column are not kept. -/
  | inText
  deriving DecidableEq, Repr

namespace RefusalPlace

/-- The words before the number of a line. -/
def lineWords : String := " at line "

/-- The words before the number of a column. -/
def columnWords : String := " column "

/-- The words for a place. -/
def words : RefusalPlace → String
  | .unknown => ""
  | .named line column => lineWords ++ toString line ++ columnWords ++ toString column
  | .inText => lineWords ++ "?" ++ columnWords ++ "?"

/-- The number of a line or a column that digits spell. -/
def number? (digits : List Char) : Option Nat :=
  (Text.readNat? 10 digits).filter (· < UInt64.size)

/-- What stands before the words for a place that a text ends in, and the line and the column. -/
def split? (s : List Char) : Option (List Char × Nat × Nat) := do
  let (before, after) ← Text.splitLast? lineWords.toList s
  let line ← number? (after.takeWhile Char.isDigit)
  let rest := after.dropWhile Char.isDigit
  if !columnWords.toList.isPrefixOf rest then none
  let column ← number? (rest.drop columnWords.length)
  return (before, line, column)

end RefusalPlace

/-- Why a text cannot be decoded. -/
inductive DecodeError where
  /-- The text is malformed or does not have the expected shape. -/
  | malformed
  /-- The text has the expected shape and its type refuses it, for the reason given. -/
  | refused (reason : String) (place : RefusalPlace)
  deriving DecidableEq, Repr

namespace DecodeError

/-- A refusal for a reason, which may end in the words for its place. Line zero stands for a place
that is not known. -/
def ofReason (reason : String) : DecodeError :=
  match RefusalPlace.split? reason.toList with
  | some (reason, line, column) =>
    .refused (String.ofList reason) (if line = 0 then .unknown else .named line column)
  | none => .refused reason .unknown

/-- The error inside a container of a text: a refusal has a place there. -/
def inText : DecodeError → DecodeError
  | .refused reason .unknown => .refused reason .inText
  | e => e

/-- The wording of the error. -/
def message : DecodeError → String
  | .malformed => "the text does not have the expected shape"
  | .refused reason place => reason ++ place.words

end DecodeError

end TestChain
