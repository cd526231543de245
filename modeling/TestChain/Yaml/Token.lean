import TestChain.Yaml.Tag
import TestChain.Yaml.Text

/-!
# Tokens of YAML

A text is cut into tokens: marks, names and texts, with the beginnings and ends of blocks made
explicit from the columns. Whether a node is the key of a mapping shows only at the colon behind it;
until then the place of its token is remembered (`KeyPlace`), and the token that says so is put
there afterwards.
-/

namespace TestChain.Yaml

/-- A token. -/
inductive Token where
  /-- An instruction that names the version. -/
  | version
  /-- An instruction that chooses the leading bytes of a handle. -/
  | lead (handle : String) (bytes : Bytes)
  /-- The mark that begins a document. -/
  | documentStart
  /-- The mark that ends a document. -/
  | documentEnd
  /-- A block sequence begins. -/
  | blockSequence
  /-- A block mapping begins. -/
  | blockMapping
  /-- A block ends. -/
  | blockEnd
  /-- A flow sequence begins. -/
  | flowSequence
  /-- A flow sequence ends. -/
  | flowSequenceEnd
  /-- A flow mapping begins. -/
  | flowMapping
  /-- A flow mapping ends. -/
  | flowMappingEnd
  /-- The mark of an item of a block sequence. -/
  | blockEntry
  /-- The comma of flow collections. -/
  | flowEntry
  /-- A key follows. -/
  | key
  /-- A value follows. -/
  | value
  /-- The name of an earlier node. -/
  | alias (name : String)
  /-- A name for the node that follows. -/
  | anchor (name : String)
  /-- A tag for the node that follows. -/
  | tag (written : WrittenTag)
  /-- A bare text. -/
  | bare (text : String)
  /-- A text in quotes or of a block that is folded. -/
  | text (text : String)
  /-- A text of a block that is kept. -/
  | literal (text : String)
  deriving DecidableEq, Repr

/-- A token that may turn out to be a key. -/
structure KeyPlace where
  /-- The number of tokens before it. -/
  position : Nat
  /-- The number of bytes before it. -/
  index : Nat
  /-- The line in which it stands. -/
  line : Nat
  /-- The column in which it stands. -/
  column : Nat
  /-- Whether nothing else but a key can stand there. -/
  required : Bool

/-- How far a text is cut into tokens. -/
structure Cutting where
  /-- The place in the text. -/
  cursor : Cursor
  /-- The tokens so far, the last first. -/
  tokens : List Token
  /-- The number of the tokens so far. -/
  count : Nat
  /-- For each flow collection that is open, the innermost first, and for the blocks around them,
  the place that may be a key. -/
  places : List (Option KeyPlace)
  /-- The column of the innermost block, minus one outside of blocks. -/
  indent : Int
  /-- The columns of the blocks around it, the innermost first. -/
  outer : List Int
  /-- Whether a key may stand at the place. -/
  keyAllowed : Bool

namespace Cutting

/-- Nothing is cut yet. -/
def ofChars (s : List Char) : Cutting :=
  ⟨.ofChars s, [], 0, [none], -1, [], true⟩

/-- Whether a flow collection is open. -/
def inFlow (s : Cutting) : Bool :=
  match s.places with
  | _ :: _ :: _ => true
  | _ => false

/-- Appends a token. -/
def push (s : Cutting) (t : Token) : Cutting :=
  { s with tokens := t :: s.tokens, count := s.count + 1 }

/-- Puts a token behind the first tokens of some number. -/
def insertAt (s : Cutting) (position : Nat) (t : Token) : Cutting :=
  let after := s.count - position
  { s with tokens := s.tokens.take after ++ t :: s.tokens.drop after, count := s.count + 1 }

/-- Ends the blocks of the columns from the innermost on that are greater than a column. -/
def endBlocks (column : Int) : Nat → Cutting → Cutting
  | 0, s => s
  | fuel + 1, s =>
    if s.indent ≤ column then s
    else
      match s.outer with
      | [] => s
      | i :: outer => endBlocks column fuel { s.push .blockEnd with indent := i, outer := outer }

/-- Ends the blocks that a column leaves; inside flow collections columns do not count. -/
def leaveBlocks (s : Cutting) (column : Int) : Cutting :=
  if s.inFlow then s else endBlocks column s.outer.length s

/-- Begins a block at a column that is greater than that of the block around it. -/
def enterBlock (s : Cutting) (column : Nat) (position : Nat) (t : Token) : Cutting :=
  if !s.inFlow && s.indent < column then
    { s.insertAt position t with indent := column, outer := s.indent :: s.outer }
  else s

/-- Whether a place is too far back to be a key. -/
def isStale (c : Cursor) (k : KeyPlace) : Bool :=
  k.line < c.line || k.index + 1024 < c.index

/-- Forgets the innermost place if it is too far back; a place where only a key can stand must not
be. The places around it are looked at once they are innermost again: before that they are of no
use. -/
def dropStale (s : Cutting) : Option Cutting :=
  match s.places with
  | some k :: rest =>
    if !isStale s.cursor k then some s
    else if k.required then none
    else some { s with places := none :: rest }
  | _ => some s

/-- Replaces the place that may be a key on the innermost level; the one before must not be
required. -/
def setPlace (s : Cutting) (place : Option KeyPlace) : Option Cutting :=
  match s.places with
  | some k :: rest => if k.required then none else some { s with places := place :: rest }
  | none :: rest => some { s with places := place :: rest }
  | [] => none

/-- Remembers the place of the next token, if a key may stand there. -/
def markPlace (s : Cutting) : Option Cutting :=
  if s.keyAllowed then
    let c := s.cursor
    s.setPlace (some ⟨s.count, c.index, c.line, c.column, !s.inFlow && s.indent = c.column⟩)
  else some s

/-- Goes on in the same line. -/
def skip (s : Cutting) (n : Nat) : Cutting :=
  { s with cursor := s.cursor.skip n }

/-- Says whether a key may stand at the place. -/
def allowKey (s : Cutting) (allowed : Bool) : Cutting :=
  { s with keyAllowed := allowed }

/-- Passes over blanks, comments and line breaks. A tab is no blank where a key of a block may
stand; a line may begin with a byte order mark. -/
def skipGap : Nat → Cutting → Cutting
  | 0, s => s
  | fuel + 1, s =>
    let c := s.cursor.skipByteOrderMark.skipWhile fun b =>
      b = ' ' || (b = '\t' && (s.inFlow || !s.keyAllowed))
    let c := if c.next? = some '#' then c.skipWhile (!isBreak ·) else c
    match c.takeBreak? with
    | some (_, c) => skipGap fuel { s with cursor := c, keyAllowed := s.keyAllowed || !s.inFlow }
    | none => { s with cursor := c }

/-! ## Single tokens -/

/-- Cuts off the mark of a document. -/
def documentMark (s : Cutting) (t : Token) : Option Cutting := do
  let s ← (s.leaveBlocks (-1)).setPlace none
  return ((s.allowKey false).push t).skip 3

/-- Reads a part of a version: up to nine digits. -/
def versionPart? (c : Cursor) : Option (Nat × Cursor) :=
  let digits := c.rest.takeWhile Char.isDigit
  if digits.length ≤ 9 then (Text.readNat? 10 digits).map fun n => (n, c.skip digits.length)
  else none

/-- Reads the version, which must be 1.1 or 1.2. -/
def versionAt (c : Cursor) : Option (Token × Cursor) := do
  let (major, c) ← versionPart? c
  if c.next? ≠ some '.' then none
  let (minor, c) ← versionPart? (c.skip 1)
  if major = 1 ∧ (minor = 1 ∨ minor = 2) then return (.version, c) else none

/-- Reads a handle and its leading bytes. -/
def leadAt (c : Cursor) : Option (Token × Cursor) := do
  let (handle, c) ← handleAt c
  if !c.next?.any isBlank then none
  let (bytes, c) ← tagCharsAt isTagCharOrMark (c.skipWhile isBlank)
  if atGap c.rest then return (.lead handle bytes, c) else none

/-- The place after the rest of a line, which may hold blanks and a comment. -/
def lineEnd? (c : Cursor) : Option Cursor :=
  let c := c.skipWhile isBlank
  let c := if c.next? = some '#' then c.skipWhile (!isBreak ·) else c
  match c.takeBreak? with
  | some (_, c) => some c
  | none => if c.rest.isEmpty then some c else none

/-- Cuts off a line with an instruction. -/
def directive (s : Cutting) : Option Cutting := do
  let s ← (s.leaveBlocks (-1)).setPlace none
  let c := s.cursor.skip 1
  let name := c.rest.takeWhile isNameChar
  let c := c.skip name.length
  let arguments := c.skipWhile isBlank
  let (token, c) ←
    if !atGap c.rest then none
    else if name = "YAML".toList then versionAt arguments
    else if name = "TAG".toList then leadAt arguments
    else none
  return { s.allowKey false with cursor := ← lineEnd? c }.push token

/-- Cuts off the beginning of a flow collection. -/
def flowStart (s : Cutting) (t : Token) : Option Cutting := do
  let s ← s.markPlace
  return (({ s with places := none :: s.places }.allowKey true).push t).skip 1

/-- Cuts off the end of a flow collection. -/
def flowEnd (s : Cutting) (t : Token) : Option Cutting := do
  let s ← s.setPlace none
  let places := match s.places with
    | _ :: p :: rest => p :: rest
    | places => places
  return (({ s with places := places }.allowKey false).push t).skip 1

/-- Cuts off a comma. -/
def flowEntry (s : Cutting) : Option Cutting := do
  let s ← s.setPlace none
  return ((s.allowKey true).push .flowEntry).skip 1

/-- Cuts off the mark of an item. -/
def blockEntry (s : Cutting) : Option Cutting := do
  if !s.inFlow && !s.keyAllowed then none
  let s ← (s.enterBlock s.cursor.column s.count .blockSequence).setPlace none
  return ((s.allowKey true).push .blockEntry).skip 1

/-- Cuts off the mark of a key. -/
def keyMark (s : Cutting) : Option Cutting := do
  if !s.inFlow && !s.keyAllowed then none
  let s ← (s.enterBlock s.cursor.column s.count .blockMapping).setPlace none
  return ((s.allowKey (!s.inFlow)).push .key).skip 1

/-- Cuts off the colon before a value. The remembered place, if there is one, is a key. -/
def valueMark (s : Cutting) : Option Cutting :=
  match s.places with
  | some k :: rest =>
    let s := { s with places := none :: rest }.insertAt k.position .key
    some (((s.enterBlock k.column k.position .blockMapping).allowKey false).push .value |>.skip 1)
  | _ =>
    if !s.inFlow && !s.keyAllowed then none
    else
      let s := s.enterBlock s.cursor.column s.count .blockMapping
      some ((s.allowKey (!s.inFlow)).push .value |>.skip 1)

/-- Cuts off a name behind its mark. -/
def named (s : Cutting) (make : String → Token) : Option Cutting := do
  let s ← s.markPlace
  let c := s.cursor.skip 1
  let name := c.rest.takeWhile isNameChar
  let c := c.skip name.length
  let stops := atGap c.rest || c.next?.any fun d => "?:,]\x7d%@\x60".toList.contains d
  if name.isEmpty || !stops then none
  else return ({ s.allowKey false with cursor := c }.push (make (String.ofList name)))

/-- Cuts off a tag. -/
def tag (s : Cutting) : Option Cutting := do
  let s ← s.markPlace
  let (written, c) ← tagAt s.cursor
  if atGap c.rest || (s.inFlow && c.next? = some ',') then
    return { s.allowKey false with cursor := c }.push (.tag written)
  else none

/-- Cuts off a text in quotes. -/
def quoted (s : Cutting) (double : Bool) : Option Cutting := do
  let s ← s.markPlace
  let r ← quotedAt double s.cursor
  return { s.allowKey false with cursor := r.cursor }.push (.text (String.ofList r.text))

/-- Cuts off a block of lines. -/
def block (s : Cutting) (folds : Bool) : Option Cutting := do
  let s ← s.setPlace none
  let r ← blockAt folds s.indent s.cursor
  let text := String.ofList r.text
  let token := if folds then .text text else .literal text
  return { s.allowKey true with cursor := r.cursor }.push token

/-- Cuts off a bare text. -/
def bare (s : Cutting) : Option Cutting := do
  let s ← s.markPlace
  let r ← bareAt s.inFlow (s.indent + 1).toNat s.cursor
  return { s.allowKey r.lineEnded with cursor := r.cursor }.push (.bare (String.ofList r.text))

/-- Cuts off the token that begins with some character, with the text after it. -/
def one (s : Cutting) (d : Char) (rest : List Char) : Option Cutting :=
  let c := s.cursor
  let gap := atGap rest
  if c.column = 0 && d = '%' then s.directive
  else if c.atMark '-' then s.documentMark .documentStart
  else if c.atMark '.' then s.documentMark .documentEnd
  else match d with
    | '[' => s.flowStart .flowSequence
    | '\x7b' => s.flowStart .flowMapping
    | ']' => s.flowEnd .flowSequenceEnd
    | '\x7d' => s.flowEnd .flowMappingEnd
    | ',' => s.flowEntry
    | '*' => s.named .alias
    | '&' => s.named .anchor
    | '!' => s.tag
    | '\'' => s.quoted false
    | '"' => s.quoted true
    | '|' => if s.inFlow then none else s.block false
    | '>' => if s.inFlow then none else s.block true
    | '-' => if gap then s.blockEntry else s.bare
    -- In flow style these two are marks also without a gap behind them.
    | '?' => if s.inFlow || gap then s.keyMark else s.bare
    | ':' => if s.inFlow || gap then s.valueMark else s.bare
    -- These cannot begin a bare word.
    | '#' => none
    | '%' => none
    | '@' => none
    | '\x60' => none
    | '\t' => none
    | _ => s.bare

/-- Ends the text: all blocks end. -/
def finish (s : Cutting) : Option (List Token) := do
  let s ← (s.leaveBlocks (-1)).setPlace none
  return s.tokens.reverse

/-- Cuts the text to its end, a token at a time. The fuel is more than the characters that are left.
-/
def run : Nat → Cutting → Option (List Token)
  | 0, _ => none
  | fuel + 1, s => do
    let s ← (skipGap (fuel + 1) s).dropStale
    match s.cursor.rest with
    | [] => s.finish
    | d :: rest =>
      let s ← (s.leaveBlocks s.cursor.column).one d rest
      run fuel s

end Cutting

/-- The tokens of a text, if it can be cut into tokens. -/
def Token.ofChars? (s : List Char) : Option (List Token) :=
  if s.all isPrintable then (Cutting.ofChars s).run (s.length + 1) else none

end TestChain.Yaml
