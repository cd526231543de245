import TestChain.Text.Digits
import TestChain.Yaml.Cursor

/-!
# Texts in YAML

The five ways in which YAML writes a text: bare, in single or double quotes, and as a block of lines
that are kept (`|`) or folded (`>`). A single line break inside a text is a space, of several the
first is dropped (`Gap.folded`).
-/

namespace TestChain.Yaml

/-! ## Gaps -/

/-- Blanks and line breaks between two parts of a text. -/
structure Gap where
  /-- The blanks, when there is no line break. -/
  blanks : List Char
  /-- The line breaks. -/
  breaks : List Char

namespace Gap

/-- The gap of nothing. -/
def none : Gap := ⟨[], []⟩

/-- The text that a gap stands for. -/
def folded (g : Gap) : List Char :=
  match g.breaks with
  | [] => g.blanks
  | '\n' :: [] => [' ']
  | '\n' :: more => more
  | bs => bs

/-- Whether a gap goes over a line's end. -/
def crosses (g : Gap) : Bool :=
  !g.breaks.isEmpty

end Gap

/-- Reads a gap. After a line's end, no tab may stand before a column. -/
def readGap (least : Nat) : Nat → Gap → Cursor → Option (Gap × Cursor)
  | 0, g, c => some (g, c)
  | fuel + 1, g, c =>
    match c.next? with
    | some b =>
      if isBlank b then
        if g.crosses && c.column < least && b = '\t' then none
        else
          let g := if g.crosses then g else { g with blanks := g.blanks ++ [b] }
          readGap least fuel g (c.skip 1)
      else
        match c.takeBreak? with
        | some (b, c) => readGap least fuel ⟨[], g.breaks ++ [b]⟩ c
        | none => some (g, c)
    | none => some (g, c)

/-- The gap at a place. -/
def gapAt (least : Nat) (c : Cursor) : Option (Gap × Cursor) :=
  readGap least c.left .none c

/-! ## Bare texts -/

/-- Splits a bare text at the first gap or mark that ends it. -/
def bareRun (flow : Bool) : List Char → Option (List Char × List Char)
  | [] => some ([], [])
  | c :: rest =>
    if isBlank c || isBreak c then some ([], c :: rest)
    else if flow && c = ':' && rest.head?.any fun d => isFlowMark d || d = '?' then none
    else if (c = ':' && atGap rest) || (flow && isFlowMark c) then some ([], c :: rest)
    else (bareRun flow rest).map fun (run, rest) => (c :: run, rest)

/-- The text so far, the last character first, with more behind it. -/
def extend (sofar more : List Char) : List Char :=
  more.reverse ++ sofar

/-- A text that was read, and the place after it. -/
structure Reading where
  /-- The text. -/
  text : List Char
  /-- The place after it. -/
  cursor : Cursor
  /-- Whether a line was ended after the last part of the text. -/
  lineEnded : Bool

/-- Reads a bare text part by part; the text so far is given the last character first. Outside flow
collections it ends before a column. -/
def readBare (flow : Bool) (least : Nat) : Nat → List Char → Gap → Cursor → Option Reading
  | 0, _, _, _ => none
  | fuel + 1, sofar, gap, c =>
    if c.atDocumentMark || c.next? = some '#' then some ⟨sofar.reverse, c, gap.crosses⟩
    else do
      let (run, _) ← bareRun flow c.rest
      if run.isEmpty then return ⟨sofar.reverse, c, gap.crosses⟩
      let sofar := extend (extend sofar gap.folded) run
      let c := c.skip run.length
      let (gap, c) ← gapAt least c
      if gap.blanks.isEmpty && !gap.crosses then return ⟨sofar.reverse, c, false⟩
      if !flow && c.column < least then return ⟨sofar.reverse, c, gap.crosses⟩
      readBare flow least fuel sofar gap c

/-- The bare text at a place. -/
def bareAt (flow : Bool) (least : Nat) (c : Cursor) : Option Reading :=
  readBare flow least (c.left + 1) [] .none c

/-! ## Quoted texts -/

/-- The character that an escape of one letter stands for. -/
def simpleEscape? : Char → Option Char
  | '0' => some '\x00'
  | 'a' => some '\x07'
  | 'b' => some '\x08'
  | 't' => some '\t'
  | '\t' => some '\t'
  | 'n' => some '\n'
  | 'v' => some '\x0b'
  | 'f' => some '\x0c'
  | 'r' => some '\r'
  | 'e' => some '\x1b'
  | ' ' => some ' '
  | '"' => some '"'
  | '/' => some '/'
  | '\\' => some '\\'
  | 'N' => some '\x85'
  | '_' => some '\xa0'
  | 'L' => some '\u2028'
  | 'P' => some '\u2029'
  | _ => none

/-- The number of digits that follow a letter in an escape. -/
def escapeWidth? : Char → Option Nat
  | 'x' => some 2
  | 'u' => some 4
  | 'U' => some 8
  | _ => none

/-- The character that the text after a backslash stands for, and the length of the escape. -/
def escape? : List Char → Option (Char × Nat)
  | [] => none
  | c :: rest =>
    match simpleEscape? c, escapeWidth? c with
    | some d, _ => some (d, 2)
    | none, some width => do
      let n ← if rest.length < width then none else Text.readNat? 16 (rest.take width)
      if n.isValidChar then some (Char.ofNat n, width + 2) else none
    | none, none => none

/-- What ends a part of a quoted text. -/
inductive PartEnd where
  /-- The quote. -/
  | closed
  /-- A gap. -/
  | gap
  /-- A backslash at the end of its line, and the place after it. -/
  | escapedBreak

/-- Reads a part of a quoted text, up to a gap or the quote; the text so far is given the last
character first. -/
def readPart (double : Bool) : Nat → List Char → Cursor → Option (List Char × Cursor × PartEnd)
  | 0, _, _ => none
  | fuel + 1, sofar, c =>
    match double, c.rest with
    | _, [] => none
    | false, '\'' :: '\'' :: _ => readPart double fuel ('\'' :: sofar) (c.skip 2)
    | false, '\'' :: _ => some (sofar, c.skip 1, .closed)
    | true, '"' :: _ => some (sofar, c.skip 1, .closed)
    | true, '\\' :: rest =>
      if !rest.isEmpty && atLineEnd rest then some (sofar, c.skip 1, .escapedBreak)
      else
        match escape? rest with
        | some (d, width) => readPart double fuel (d :: sofar) (c.skip width)
        | none => none
    | _, d :: _ =>
      if isBlank d || isBreak d then some (sofar, c, .gap)
      else readPart double fuel (d :: sofar) (c.skip 1)

/-- Reads a quoted text part by part. -/
def readQuoted (double : Bool) : Nat → List Char → Cursor → Option (List Char × Cursor)
  | 0, _, _ => none
  | fuel + 1, sofar, c =>
    if c.atDocumentMark then none
    else do
      let (sofar, c, stop) ← readPart double (c.left + 1) sofar c
      match stop with
      | .closed => return (sofar.reverse, c)
      | .gap =>
        let (gap, c) ← gapAt 0 c
        readQuoted double fuel (extend sofar gap.folded) c
      | .escapedBreak =>
        let (_, c) ← c.takeBreak?
        let (gap, c) ← readGap 0 c.left ⟨[], ['\n']⟩ c
        readQuoted double fuel (extend sofar (gap.breaks.drop 1)) c

/-- The quoted text that begins at a place. -/
def quotedAt (double : Bool) (c : Cursor) : Option Reading :=
  (readQuoted double (c.left + 1) [] (c.skip 1)).map fun (text, c) => ⟨text, c, false⟩

/-! ## Blocks of lines -/

/-- How the line breaks at the end of a block are treated. -/
inductive Chomping where
  /-- None is kept. -/
  | strip
  /-- The first is kept. -/
  | clip
  /-- All are kept. -/
  | keep

/-- The head of a block: how it is chomped, and its indentation if it is given. -/
structure BlockHead where
  /-- How the end is treated. -/
  chomping : Chomping
  /-- The columns that the block is moved in, if they are given. -/
  shift : Option Nat

/-- The chomping that a mark stands for. -/
def chomping? : Char → Option Chomping
  | '-' => some .strip
  | '+' => some .keep
  | _ => none

/-- The indentation that a digit stands for. -/
def shift? (c : Char) : Option Nat :=
  if '1' ≤ c && c ≤ '9' then some (c.toNat - 48) else none

/-- Reads the marks after the mark of a block, in either order. -/
def blockHead (s : List Char) : BlockHead × Nat :=
  match s with
  | a :: b :: _ =>
    match chomping? a, shift? a, chomping? b, shift? b with
    | some k, _, _, some n => (⟨k, some n⟩, 2)
    | _, some n, some k, _ => (⟨k, some n⟩, 2)
    | some k, _, _, _ => (⟨k, none⟩, 1)
    | _, some n, _, _ => (⟨.clip, some n⟩, 1)
    | _, _, _, _ => (⟨.clip, none⟩, 0)
  | [a] =>
    match chomping? a, shift? a with
    | some k, _ => (⟨k, none⟩, 1)
    | _, some n => (⟨.clip, some n⟩, 1)
    | _, _ => (⟨.clip, none⟩, 0)
  | [] => (⟨.clip, none⟩, 0)

/-- Reads the empty lines before a line of a block, and the blanks that indent it; gives the line
breaks and the deepest indentation. No tab may be used for it. -/
def readIndent (indent : Option Nat) :
    Nat → List Char → Nat → Cursor → Option (List Char × Nat × Cursor)
  | 0, _, _, _ => none
  | fuel + 1, breaks, deepest, c =>
    let wanted := fun (c : Cursor) => indent.all (c.column < ·)
    let spaces := (c.rest.takeWhile (· = ' ')).length
    let c := c.skip (match indent with | some n => min spaces (n - c.column) | none => spaces)
    let deepest := max deepest c.column
    if wanted c && c.next? = some '\t' then none
    else
      match c.takeBreak? with
      | some (b, c) => readIndent indent fuel (breaks ++ [b]) deepest c
      | none => some (breaks, deepest, c)

/-- The part of a block read so far. -/
structure BlockSoFar where
  /-- The text, the last character first. -/
  text : List Char
  /-- The break after the last line. -/
  lineBreak : List Char
  /-- The breaks of empty lines after it. -/
  emptyLines : List Char
  /-- Whether the last line began with a blank. -/
  wasIndented : Bool

/-- Reads the lines of a block of an indentation. -/
def readLines (folds : Bool) (indent : Nat) :
    Nat → BlockSoFar → Cursor → Option (BlockSoFar × Cursor)
  | 0, _, _ => none
  | fuel + 1, b, c =>
    if c.column ≠ indent || c.rest.isEmpty then some (b, c)
    else do
      let isIndented := c.next?.any isBlank
      -- A break between two lines that are not indented further becomes a space, or nothing where
      -- empty lines come between them.
      let joins := folds && b.lineBreak = ['\n'] && !b.wasIndented && !isIndented
      let between :=
        if joins then if b.emptyLines.isEmpty then [' '] else b.emptyLines
        else b.lineBreak ++ b.emptyLines
      let line := c.rest.takeWhile (!isBreak ·)
      let c := c.skip line.length
      let (lineBreak, c) := match c.takeBreak? with
        | some (d, c) => ([d], c)
        | none => ([], c)
      let (emptyLines, _, c) ← readIndent (some indent) (c.left + 1) [] 0 c
      let text := extend (extend b.text between) line
      readLines folds indent fuel ⟨text, lineBreak, emptyLines, isIndented⟩ c

/-- The block of lines whose mark stands at a place, inside a block of some indentation. -/
def blockAt (folds : Bool) (outer : Int) (c : Cursor) : Option Reading := do
  let c := c.skip 1
  let (head, width) := blockHead c.rest
  let c := (c.skip width).skipWhile isBlank
  let c := if c.next? = some '#' then c.skipWhile (!isBreak ·) else c
  if !atLineEnd c.rest then none
  let c := match c.takeBreak? with
    | some (_, c) => c
    | none => c
  -- Without a given indentation the first line that is not empty sets it.
  let given := head.shift.map fun n => n + outer.toNat
  let (emptyLines, deepest, c) ← readIndent given (c.left + 1) [] 0 c
  let indent := given.getD (max deepest (max (outer + 1).toNat 1))
  let (b, c) ← readLines folds indent (c.left + 1) ⟨[], [], emptyLines, false⟩ c
  let tail := match head.chomping with
    | .strip => []
    | .clip => b.lineBreak
    | .keep => b.lineBreak ++ b.emptyLines
  return ⟨(extend b.text tail).reverse, c, true⟩

end TestChain.Yaml
