/-!
# Places in a YAML text

A `Cursor` is the rest of a text together with the line and the column where it begins; columns
decide where blocks end. The classes of characters are those of YAML: blanks, line breaks and the
marks of flow collections.
-/

namespace TestChain.Yaml

/-- A space or a tab. -/
def isBlank (c : Char) : Bool :=
  c = ' ' || c = '\t'

/-- A character that ends a line. -/
def isBreak (c : Char) : Bool :=
  c = '\n' || c = '\r' || c = '\x85' || c = '\u2028' || c = '\u2029'

/-- A mark of flow collections. -/
def isFlowMark (c : Char) : Bool :=
  c = ',' || c = '[' || c = ']' || c = '\x7b' || c = '\x7d'

/-- A character of a name. -/
def isNameChar (c : Char) : Bool :=
  c.isAlphanum || c = '_' || c = '-'

/-- A character that may stand in a text at all. -/
def isPrintable (c : Char) : Bool :=
  let n := c.toNat
  n = 0x9 || n = 0xA || n = 0xD || (0x20 ≤ n && n ≤ 0x7E) || n = 0x85 ||
    (0xA0 ≤ n && n ≤ 0xFFFD) || 0x10000 ≤ n

/-- Whether a blank, a line break or the end is next. -/
def atGap : List Char → Bool
  | [] => true
  | c :: _ => isBlank c || isBreak c

/-- Whether the line ends next. -/
def atLineEnd : List Char → Bool
  | [] => true
  | c :: _ => isBreak c

/-- The number of bytes of a text in UTF-8. -/
def byteLength (s : List Char) : Nat :=
  s.foldl (fun n c => n + c.utf8Size) 0

/-- A place in a text. -/
structure Cursor where
  /-- The rest of the text. -/
  rest : List Char
  /-- The number of characters in it. -/
  left : Nat
  /-- The count is that of the rest. -/
  length_rest : rest.length = left
  /-- The number of bytes before it. -/
  index : Nat
  /-- The number of lines before it. -/
  line : Nat
  /-- The number of characters before it in its line. -/
  column : Nat

namespace Cursor

/-- The beginning of a text. -/
def ofChars (s : List Char) : Cursor := ⟨s, s.length, rfl, 0, 0, 0⟩

/-- The next character. -/
def next? (c : Cursor) : Option Char :=
  c.rest.head?

/-- The place some characters later in the same line. -/
def skip (c : Cursor) (n : Nat) : Cursor :=
  ⟨c.rest.drop n, c.left - n, by rw [List.length_drop, c.length_rest],
    c.index + byteLength (c.rest.take n), c.line, c.column + n⟩

/-- The place after the characters with a property, in the same line. -/
def skipWhile (c : Cursor) (p : Char → Bool) : Cursor :=
  c.skip (c.rest.takeWhile p).length

/-- The place some characters later, at the beginning of the next line. -/
def nextLine (c : Cursor) (n : Nat) : Cursor :=
  { c.skip n with line := c.line + 1, column := 0 }

/-- The place after a byte order mark that begins a line. -/
def skipByteOrderMark (c : Cursor) : Cursor :=
  if c.column = 0 && c.next? = some '\ufeff' then c.skip 1 else c

/-- The place after a line break, and the break in its normal form. -/
def takeBreak? (c : Cursor) : Option (Char × Cursor) :=
  match c.rest with
  | '\r' :: '\n' :: _ => some ('\n', c.nextLine 2)
  | b :: _ =>
    if isBreak b then some (if b = '\u2028' || b = '\u2029' then b else '\n', c.nextLine 1)
    else none
  | [] => none

/-- Whether a line begins here with a mark of three characters and a gap. -/
def atMark (c : Cursor) (m : Char) : Bool :=
  c.column = 0 &&
    match c.rest with
    | a :: b :: d :: rest => a = m && b = m && d = m && atGap rest
    | _ => false

/-- Whether a line begins here that begins or ends a document. -/
def atDocumentMark (c : Cursor) : Bool :=
  c.atMark '-' || c.atMark '.'

end Cursor

end TestChain.Yaml
