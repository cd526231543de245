import TestChain.Codec.Basic

/-!
# Decimals

A `Decimal` is a number with eighteen places, kept as the whole number of its last places
(`atomics`), which stays below `2^128`. `Decimal.text` writes all eighteen places, `Decimal.parse`
reads one with at most eighteen.
-/

namespace TestChain

/-- The value of one whole: ten to the eighteenth. -/
def decimalUnit : Nat := 1000000000000000000

/-- The bound of scaled values: two to the 128th. -/
abbrev decimalBound : Nat := 340282366920938463463374607431768211456

/-- A number with eighteen places. -/
structure Decimal where
  /-- The number times ten to the eighteenth. -/
  atomics : Nat
  /-- The scaled number has at most 128 bits. -/
  atomics_lt : atomics < decimalBound := by decide
  deriving DecidableEq, Repr

/-- A text that is no decimal. -/
structure InvalidDecimal where
  /-- The text. -/
  text : String
  deriving DecidableEq, Repr

/-- The wording of the error. -/
def InvalidDecimal.message (e : InvalidDecimal) : String :=
  "Invalid decimal: " ++ e.text

namespace Decimal

instance : Inhabited Decimal := ⟨⟨0, by decide⟩⟩

/-- The decimal with the given scaled value, if it has at most 128 bits. -/
def ofAtomics? (n : Nat) : Option Decimal :=
  if h : n < decimalBound then some ⟨n, h⟩ else none

/-- The decimal with the given scaled value, or the largest one. -/
def clamp (n : Nat) : Decimal :=
  if h : n < decimalBound then ⟨n, h⟩ else ⟨decimalBound - 1, by decide⟩

/-- Zero. -/
def zero : Decimal := ⟨0, by decide⟩

/-- One. -/
def one : Decimal := ⟨decimalUnit, by decide⟩

/-- The value whose last `precision` digits stand after the point; what lies beyond eighteen places
is cut off. -/
def withPrecision (value : UInt64) (precision : UInt32) : Decimal :=
  if precision.toNat ≤ 18 then clamp (value.toNat * Nat.pow 10 (18 - precision.toNat))
  else
    let places := precision.toNat - 18
    if places ≤ 38 then clamp (value.toNat / Nat.pow 10 places) else zero

/-- A whole number. -/
def ofInteger (value : UInt64) : Decimal :=
  clamp (value.toNat * decimalUnit)

/-- Whether a decimal is zero. -/
def isZero (d : Decimal) : Bool :=
  d.atomics = 0

/-- A decimal as text, with eighteen places. -/
def text (d : Decimal) : String :=
  String.ofList (Text.natDigits 10 (d.atomics / decimalUnit) ++
    '.' :: Text.padded 10 18 (d.atomics % decimalUnit))

/-- Splits a text at the first point; nothing after it is the empty text. -/
def splitPoint : List Char → List Char × List Char
  | [] => ([], [])
  | c :: rest =>
    if c = '.' then ([], rest)
    else ((c :: (splitPoint rest).1), (splitPoint rest).2)

/-- The scaled value of the places after the point. -/
def placesValue? (s : List Char) : Option Nat :=
  if s.isEmpty then some 0
  else (Text.readBounded? 10 decimalBound s).map (· * Nat.pow 10 (18 - s.length))

/-- The scaled value of a text. -/
def atomics? (s : List Char) : Option Nat :=
  let (whole, places) := splitPoint s
  if whole.isEmpty || 18 < places.length then none
  else
    match Text.readBounded? 10 decimalBound whole, placesValue? places with
    | some n, some m => some (n * decimalUnit + m)
    | _, _ => none

/-- The decimal that a text stands for. -/
def parse (s : String) : Except InvalidDecimal Decimal :=
  match (atomics? s.toList).bind ofAtomics? with
  | some d => .ok d
  | none => .error ⟨s⟩

/-- Decimals are written as texts. -/
def codec : Codec Decimal :=
  .ofParser text fun s => (parse s).mapError InvalidDecimal.message

end Decimal

end TestChain
