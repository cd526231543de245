/-!
# Numbers in digits

`readNat?` reads a text that consists of one or more digits of a base, and `readBounded?` one that
may begin with a plus sign and must stay below a bound. `padded` writes a number with leading zeros.
-/

namespace TestChain.Text

/-- The value of a decimal digit or a letter of either case, below 36. -/
def digitValue? (c : Char) : Option Nat :=
  if '0' ≤ c && c ≤ '9' then some (c.toNat - 48)
  else if 'a' ≤ c && c ≤ 'z' then some (c.toNat - 87)
  else if 'A' ≤ c && c ≤ 'Z' then some (c.toNat - 55)
  else none

/-- Reads further digits of a base after the number read so far. -/
def readDigits? (base : Nat) : Nat → List Char → Option Nat
  | value, [] => some value
  | value, c :: rest =>
    match digitValue? c with
    | some d => if d < base then readDigits? base (base * value + d) rest else none
    | none => none

/-- Reads a text of one or more digits of a base. -/
def readNat? (base : Nat) (s : List Char) : Option Nat :=
  if s.isEmpty then none else readDigits? base 0 s

/-- A text without a plus sign at its front, if it has one. -/
def dropPlus : List Char → List Char
  | '+' :: rest => rest
  | s => s

/-- Reads digits of a base, after a plus sign or not, whose number is below the bound. -/
def readBounded? (base bound : Nat) (s : List Char) : Option Nat :=
  match readNat? base (dropPlus s) with
  | some n => if n < bound then some n else none
  | none => none

/-- The digits of a number. -/
def natDigits (base n : Nat) : List Char :=
  Nat.toDigits base n

/-- The digits of a number, with zeros in front up to the given width. -/
def padded (base width n : Nat) : List Char :=
  let digits := natDigits base n
  List.replicate (width - digits.length) '0' ++ digits

end TestChain.Text
