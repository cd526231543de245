import TestChain.Codec.Node

/-!
# Reading JSON

`Json.readText` reads a JSON text as a tree, strictly by the grammar: blanks between the tokens
only, no leading zeros, no comma after the last item, no control characters in texts. A text that
breaks off or goes wrong gives the tree up to that place. Containers that stand in 127 others are
checked but have no value. A number with a point or an exponent, or beyond 64 bits, is the double
that comes from its first digits, as many as fit in 64 bits, by one multiplication or division with
a power of ten.
-/

namespace TestChain

namespace Reading

/-- The blanks between tokens. -/
def isBlank (c : Char) : Bool :=
  c = ' ' || c = '\n' || c = '\t' || c = '\r'

/-- A text without the blanks at its front. -/
def skipBlanks (s : List Char) : List Char :=
  s.dropWhile isBlank

/-! ## Texts -/

/-- A piece of a text between quotes. -/
inductive Piece where
  /-- A character, written as itself or by its letter. -/
  | char (c : Char)
  /-- A unit of UTF-16, written by its number. -/
  | unit (n : Nat)
  deriving DecidableEq, Repr

/-- The value of a hexadecimal digit. -/
def hexValue? (c : Char) : Option Nat :=
  match Text.digitValue? c with
  | some d => if d < 16 then some d else none
  | none => none

/-- The number that four hexadecimal digits stand for. -/
def unit? (a b c d : Char) : Option Nat :=
  match hexValue? a, hexValue? b, hexValue? c, hexValue? d with
  | some a, some b, some c, some d => some (((a * 16 + b) * 16 + c) * 16 + d)
  | _, _, _, _ => none

/-- The character that a letter after a backslash stands for. -/
def letter? (c : Char) : Option Char :=
  if c = '"' then some '"'
  else if c = '\\' then some '\\'
  else if c = '/' then some '/'
  else if c = 'b' then some '\x08'
  else if c = 'f' then some '\x0c'
  else if c = 'n' then some '\n'
  else if c = 'r' then some '\r'
  else if c = 't' then some '\t'
  else none

/-- Puts a piece in front of the pieces read after it. -/
def consPiece (p : Piece) : Option (List Piece × List Char) → Option (List Piece × List Char)
  | some (ps, rest) => some (p :: ps, rest)
  | none => none

/-- The pieces of a text up to its closing quote, and what follows. -/
def pieces : List Char → Option (List Piece × List Char)
  | [] => none
  | '"' :: rest => some ([], rest)
  | '\\' :: 'u' :: a :: b :: c :: d :: rest =>
    match unit? a b c d with
    | some n => consPiece (.unit n) (pieces rest)
    | none => none
  | '\\' :: c :: rest =>
    match letter? c with
    | some x => consPiece (.char x) (pieces rest)
    | none => none
  | c :: rest => if c.toNat < 0x20 || c = '\\' then none else consPiece (.char c) (pieces rest)

/-- The text that pieces stand for. A unit from the first half of the surrogates needs one from the
second half after it, and none stands alone. -/
def join : List Piece → Option (List Char)
  | [] => some []
  | .char c :: rest => (join rest).map (c :: ·)
  | .unit n :: .unit m :: rest =>
    if 0xD800 ≤ n && n < 0xDC00 then
      -- The two halves of a pair of surrogates stand for one character beyond the first 65536.
      if 0xDC00 ≤ m && m < 0xE000 then
        (join rest).map (Char.ofNat (0x10000 + (n - 0xD800) * 0x400 + (m - 0xDC00)) :: ·)
      else none
    else if 0xDC00 ≤ n && n < 0xE000 then none
    else (join (.unit m :: rest)).map (Char.ofNat n :: ·)
  | .unit n :: rest =>
    if 0xD800 ≤ n && n < 0xE000 then none else (join rest).map (Char.ofNat n :: ·)

/-! ## Numbers -/

/-- A number as it is written. -/
structure Numeral where
  /-- Whether a minus sign stands in front. -/
  negative : Bool
  /-- The digits before the point. -/
  whole : List Char
  /-- The digits after the point, if there is one. -/
  fraction : Option (List Char)
  /-- The sign of the exponent, true for minus, and its digits, if there is one. -/
  exponent : Option (Bool × List Char)
  deriving DecidableEq, Repr

/-- The digits at the front of a text, and what follows. -/
def spanDigits (s : List Char) : List Char × List Char :=
  (s.takeWhile Char.isDigit, s.dropWhile Char.isDigit)

/-- The exponent at the front of a text, if there is one. -/
def readExponent (s : List Char) : Option (Option (Bool × List Char) × List Char) :=
  match s with
  | c :: rest =>
    if c = 'e' || c = 'E' then
      let (negative, rest) := match rest with
        | '+' :: r => (false, r)
        | '-' :: r => (true, r)
        | r => (false, r)
      let (digits, rest) := spanDigits rest
      if digits.isEmpty then none else some (some (negative, digits), rest)
    else some (none, s)
  | [] => some (none, s)

/-- The fraction at the front of a text, if there is one. -/
def readFraction (s : List Char) : Option (Option (List Char) × List Char) :=
  match s with
  | '.' :: rest =>
    let (digits, rest) := spanDigits rest
    if digits.isEmpty then none else some (some digits, rest)
  | _ => some (none, s)

/-- The number at the front of a text, after its sign. -/
def readNumeral (negative : Bool) (s : List Char) : Option (Numeral × List Char) :=
  let (whole, rest) := spanDigits s
  match whole with
  | [] => none
  -- Only the number zero begins with a zero.
  | '0' :: _ :: _ => none
  | _ =>
    match readFraction rest with
    | none => none
    | some (fraction, rest) =>
      match readExponent rest with
      | none => none
      | some (exponent, rest) => some (⟨negative, whole, fraction, exponent⟩, rest)

/-- The largest whole number whose digits a double is made from. -/
def maxSignificand : Nat := 18446744073709551615

/-- Reads digits on while the number stays in 64 bits; gives the number and the digits left over. -/
def significand : Nat → List Char → Nat × List Char
  | n, [] => (n, [])
  | n, c :: rest =>
    let m := 10 * n + (c.toNat - 48)
    if m ≤ maxSignificand then significand m rest else (n, c :: rest)

/-- A power of ten as a double. -/
def powerOfTen (e : Nat) : Float :=
  Float.ofScientific 1 false e

/-- Divides by a power of ten, in steps when the power itself is out of range. -/
def scaleDown (f : Float) (e : Nat) : Float :=
  if e ≤ 308 then f / powerOfTen e
  else if f == 0 then f
  else scaleDown (f / powerOfTen 308) (e - 308)
termination_by e

/-- The double of a magnitude, if it is in range. -/
def magnitude? (n : Nat) (e : Int) : Option Float :=
  let f := n.toUInt64.toFloat
  if e < 0 then some (scaleDown f (-e).toNat)
  else if e ≤ 308 then
    let scaled := f * powerOfTen e.toNat
    if scaled.isInf then none else some scaled
  else if f == 0 then some f
  else none

/-- The largest exponent that is read as it stands. -/
def maxExponent : Nat := 2147483647

/-- The exponent that digits spell; every one that is too large counts as the next after the
largest. -/
def exponentOf (digits : List Char) : Nat :=
  digits.foldl (fun e c => min (10 * e + (c.toNat - 48)) (maxExponent + 1)) 0

/-- A double with a sign. -/
def signed (negative : Bool) (f : Float) : Float :=
  if negative then -f else f

/-- The double that a numeral stands for, if it is in range. -/
def Numeral.float? (x : Numeral) : Option Float :=
  let (n, left) := significand 0 x.whole
  let (n, places) :=
    match x.fraction with
    | none => (n, 0)
    | some digits =>
      let (m, rest) := significand n digits
      (m, digits.length - rest.length)
  -- Digits that did not fit count as zeros; those of the fraction that were read move the point.
  let shift : Int := left.length - places
  match x.exponent with
  | none => (magnitude? n shift).map (signed x.negative)
  | some (down, digits) =>
    let e := exponentOf digits
    -- With such an exponent a number is out of range or vanishes, and zero stays zero.
    if maxExponent < e then
      if n ≠ 0 && !down then none else some (signed x.negative 0)
    else
      let e : Int := if down then -e else e
      (magnitude? n (shift + e)).map (signed x.negative)

/-- The number that a numeral stands for, if it has one: a whole number when it is written as one
and fits in 64 bits, except minus zero. -/
def Numeral.value? (x : Numeral) : Option Number :=
  match x.fraction, x.exponent with
  | none, none =>
    let (n, left) := significand 0 x.whole
    let i : Int := if x.negative then -n else n
    -- No whole number keeps the sign of a zero.
    if x.negative && n = 0 then some (.float (-0.0))
    else match if left.isEmpty then Number.ofInt? i else none with
      | some value => some value
      | none => x.float?.map .float
  | _, _ => x.float?.map .float

/-! ## Values -/

/-- The most containers that a container with a value may stand in. -/
def maxDepth : Nat := 126

/-- The node of a container at a depth. -/
def container (depth : Nat) (node : Node) (whole : Bool) : Node :=
  if depth ≤ maxDepth then node else if whole then .unreadable else .cut

/-- Reads the rest of a word that has begun. -/
def readWord (word : List Char) (node : Node) (s : List Char) : Node × Option (List Char) :=
  if word.isPrefixOf s then (node, some (s.drop word.length)) else (.cut, none)

/-- Reads a number after its sign. -/
def readNumber (negative : Bool) (s : List Char) : Node × Option (List Char) :=
  match readNumeral negative s with
  | none => (.cut, none)
  | some (x, rest) =>
    match x.value? with
    | some n => (.num n, some rest)
    | none => (.unreadable, some rest)

/-- Reads a text after its opening quote. -/
def readString (s : List Char) : Option (Option String × List Char) :=
  match pieces s with
  | none => none
  | some (ps, rest) => some ((join ps).map String.ofList, rest)

mutual

/-- Reads a value that stands in `depth` containers; without what follows when the text breaks off
in it. -/
def readNode : (fuel depth : Nat) → List Char → Node × Option (List Char)
  | 0, _, _ => (.cut, none)
  | fuel + 1, depth, s =>
    match skipBlanks s with
    | [] => (.cut, none)
    | c :: rest =>
      if c = 'n' then readWord ['u', 'l', 'l'] .null rest
      else if c = 't' then readWord ['r', 'u', 'e'] (.bool true) rest
      else if c = 'f' then readWord ['a', 'l', 's', 'e'] (.bool false) rest
      else if c = '"' then
        match readString rest with
        | none => (.cut, none)
        | some (some text, rest) => (.str text, some rest)
        | some (none, rest) => (.unreadable, some rest)
      else if c = '-' then readNumber true rest
      else if c.isDigit then readNumber false (c :: rest)
      else if c = '[' then
        match skipBlanks rest with
        | ']' :: rest => (container depth (.seq [] (.text true)) true, some rest)
        | rest =>
          let (items, after) := readItems fuel (depth + 1) rest
          (container depth (.seq items (.text after.isSome)) after.isSome, after)
      else if c = '\x7b' then
        match skipBlanks rest with
        | '\x7d' :: rest => (container depth (.map [] (.text true)) true, some rest)
        | rest =>
          let (members, after) := readMembers fuel (depth + 1) rest
          (container depth (.map members (.text after.isSome)) after.isSome, after)
      else (.cut, none)

/-- Reads the items of an array, at least one, and its closing bracket. -/
def readItems : (fuel depth : Nat) → List Char → List Node × Option (List Char)
  | 0, _, _ => ([], none)
  | fuel + 1, depth, s =>
    let (node, after) := readNode fuel depth s
    match after with
    | none => ([node], none)
    | some rest =>
      match skipBlanks rest with
      | ',' :: rest =>
        let (nodes, after) := readItems fuel depth rest
        (node :: nodes, after)
      | ']' :: rest => ([node], some rest)
      | _ => ([node], none)

/-- Reads the members of an object, at least one, and its closing brace. -/
def readMembers : (fuel depth : Nat) → List Char → List (Node × Node) × Option (List Char)
  | 0, _, _ => ([], none)
  | fuel + 1, depth, s =>
    match skipBlanks s with
    | '"' :: rest =>
      match readString rest with
      | none => ([], none)
      | some (name, rest) =>
        -- A name that cannot be read is found out only when it is decoded.
        let key := match name with
          | some text => Node.str text
          | none => Node.unreadable
        match skipBlanks rest with
        | ':' :: rest =>
          let (node, after) := readNode fuel depth rest
          match after with
          | none => ([(key, node)], none)
          | some rest =>
            match skipBlanks rest with
            | ',' :: rest =>
              let (nodes, after) := readMembers fuel depth rest
              ((key, node) :: nodes, after)
            | '\x7d' :: rest => ([(key, node)], some rest)
            | _ => ([(key, node)], none)
        | _ => ([(key, .cut)], none)
    | _ => ([], none)

end

end Reading

/-- Reads a JSON text as a tree; the truth value says that nothing but blanks follows the value. -/
def Json.readText (s : List Char) : Node × Bool :=
  let (node, after) := Reading.readNode (2 * s.length + 2) 0 s
  match after with
  | none => (node, false)
  | some rest => (node, (Reading.skipBlanks rest).isEmpty)

/-- The free value that a JSON text stands for. -/
def Json.ofText (s : List Char) : Except DecodeError Json := do
  let (node, whole) := Json.readText s
  let value ← node.toJson.run' 0
  if whole then return value else throw .malformed

end TestChain
