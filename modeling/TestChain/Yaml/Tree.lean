import TestChain.Codec.Basic
import TestChain.Yaml.Token

/-!
# Trees of YAML

`Yaml.read?` reads a text of one document as a `Tree`, in which aliases go by number, and makes a
`Node` of it (`Tree.toNode`): bare texts keep their words, so that a decoder can settle their types,
and an alias is replaced by its node when a decoder follows it. Containers nested more than 128 deep
can be passed over but not decoded.
-/

namespace TestChain.Yaml

/-- A node of a document. -/
inductive Tree where
  /-- A scalar. -/
  | leaf (scalar : Node)
  /-- A sequence. -/
  | seq (items : List Tree)
  /-- A mapping. -/
  | map (members : List (Tree × Tree))
  /-- A node with a tag in front. -/
  | tagged (tag : Tag) (body : Tree)
  /-- A node with a name in front. -/
  | named (body : Tree)
  /-- The node of a number. -/
  | alias (number : Nat)

/-- The node of a place where nothing is written. -/
def Tree.blank : Tree := .leaf (.plain "")

/-! ## Reading tokens -/

/-- The tokens that are left, and what is known of the document so far. -/
structure Remaining where
  /-- The tokens. -/
  tokens : List Token
  /-- The leading bytes that handles stand for. -/
  leads : Leads
  /-- The names and their numbers. -/
  numbers : Members Nat
  /-- The numbers of the named nodes, the last first. -/
  order : List Nat

/-- Something that is read from tokens. -/
abbrev Read (α : Type) := StateT Remaining Option α

namespace Read

/-- The next token. -/
def peek : Read (Option Token) := do
  return (← get).tokens.head?

/-- Passes over the next token. -/
def drop : Read Unit :=
  modify fun s => { s with tokens := s.tokens.tail }

/-- Passes over a token if it is next; says whether it was. -/
def accept (t : Token) : Read Bool := do
  if (← peek) = some t then
    drop
    return true
  else return false

/-- Passes over a token that must be next. -/
def expect (t : Token) : Read Unit := do
  if !(← accept t) then failure

/-- Numbers a node that has a name. The number is that of the names so far, a name that comes again
included only once; so a node may get the number of an earlier one, whose aliases it then takes. -/
def register (name : String) : Read Unit :=
  modify fun s =>
    let number := s.numbers.length
    { s with numbers := Members.put name number s.numbers, order := number :: s.order }

end Read

/-- What stands in front of a node. -/
structure Front where
  /-- The name of the node. -/
  name : Option String
  /-- The tag of the node. -/
  tag : Option Tag

namespace Front

/-- The node behind it. -/
def on (f : Front) (t : Tree) : Tree :=
  let t := match f.tag with
    | some tag => .tagged tag t
    | none => t
  if f.name.isSome then .named t else t

/-- Whether nothing stands in front. -/
def isEmpty (f : Front) : Bool :=
  f.name.isNone && f.tag.isNone

end Front

/-- Reads a name. -/
def readName : Read (Option String) := do
  match ← Read.peek with
  | some (.anchor name) =>
    Read.drop
    return some name
  | _ => return none

/-- Reads a tag. -/
def readTag : Read (Option Tag) := do
  match ← Read.peek with
  | some (.tag written) =>
    match written.resolve? (← get).leads with
    | some tag =>
      Read.drop
      return some tag
    | none => failure
  | _ => return none

/-- Reads a name and a tag, in either order. -/
def readFront : Read Front := do
  match ← readName with
  | some name => return ⟨some name, ← readTag⟩
  | none =>
    let tag ← readTag
    if tag.isSome then return ⟨← readName, tag⟩ else return ⟨none, none⟩

/-- Where a node stands: what may stand there, and what follows where nothing stands there. -/
inductive Place where
  /-- An item of a block sequence. -/
  | blockItem
  /-- An item of a block sequence that is not moved in. -/
  | flushItem
  /-- A key or value of a block mapping. -/
  | blockPart
  /-- A value of a pair in a flow sequence. -/
  | pairValue
  /-- A key of a flow mapping. -/
  | flowKey
  /-- A value of a flow mapping. -/
  | flowValue

/-- Whether a token follows a place where nothing stands. -/
def Place.isFollowedBy : Place → Token → Bool
  | .blockItem, t => t = .blockEntry || t = .blockEnd
  | .flushItem, t => t = .blockEntry || t = .key || t = .value || t = .blockEnd
  | .blockPart, t => t = .key || t = .value || t = .blockEnd
  | .pairValue, t => t = .flowEntry || t = .flowSequenceEnd
  | .flowKey, t => t = .value || t = .flowEntry || t = .flowMappingEnd
  | .flowValue, t => t = .flowEntry || t = .flowMappingEnd

/-- Whether a node at a place may be a block. -/
def Place.allowsBlock : Place → Bool
  | .blockItem => true
  | .flushItem => true
  | .blockPart => true
  | _ => false

/-- Whether a node at a place may be a sequence that is not moved in. -/
def Place.allowsFlush : Place → Bool
  | .blockPart => true
  | _ => false

mutual

/-- Reads a node that must be there; `block` says whether it may be a block, `flush` whether it may
be a sequence that is not moved in. -/
def readNode : Nat → (block flush : Bool) → Read Tree
  | 0, _, _ => failure
  | fuel + 1, block, flush => do
    match ← Read.peek with
    | some (.alias name) =>
      Read.drop
      match (← get).numbers.lookup name with
      | some number => return .alias number
      | none => failure
    | _ =>
      let front ← readFront
      -- The name is known from here on, also within what it names.
      front.name.forM Read.register
      return front.on (← readContent fuel block flush front)

/-- Reads a node without its name and its tag. -/
def readContent : Nat → (block flush : Bool) → Front → Read Tree
  | 0, _, _, _ => failure
  | fuel + 1, block, flush, front => do
    match ← Read.peek, block, flush with
    -- The items of a sequence in a mapping may stand flush with the key.
    | some .blockEntry, _, true => return .seq (← readFlushItems fuel)
    | some (.bare s), _, _ =>
      Read.drop
      return .leaf (.plain s)
    | some (.text s), _, _ =>
      Read.drop
      return .leaf (.str s)
    | some (.literal s), _, _ =>
      Read.drop
      return .leaf (.literal s)
    | some .flowSequence, _, _ =>
      Read.drop
      return .seq (← readFlowItems fuel true)
    | some .flowMapping, _, _ =>
      Read.drop
      return .map (← readFlowMembers fuel true)
    | some .blockSequence, true, _ =>
      Read.drop
      return .seq (← readBlockItems fuel)
    | some .blockMapping, true, _ =>
      Read.drop
      return .map (← readBlockMembers fuel)
    | _, _, _ => if front.isEmpty then failure else return .blank

/-- Reads a node at a place where there may be none. -/
def readPlace : Nat → Place → Read Tree
  | 0, _ => failure
  | fuel + 1, place => do
    match ← Read.peek with
    | some t =>
      if place.isFollowedBy t then return .blank
      else readNode fuel place.allowsBlock place.allowsFlush
    | none => failure

/-- Reads the items of a block sequence. -/
def readBlockItems : Nat → Read (List Tree)
  | 0 => failure
  | fuel + 1 => do
    if ← Read.accept .blockEntry then
      let t ← readPlace fuel .blockItem
      return t :: (← readBlockItems fuel)
    else
      Read.expect .blockEnd
      return []

/-- Reads the items of a block sequence that is not moved in. -/
def readFlushItems : Nat → Read (List Tree)
  | 0 => failure
  | fuel + 1 => do
    if ← Read.accept .blockEntry then
      let t ← readPlace fuel .flushItem
      return t :: (← readFlushItems fuel)
    else return []

/-- Reads the value of a member, which may be missing. -/
def readValue : Nat → Place → Read Tree
  | 0, _ => failure
  | fuel + 1, place => do
    if ← Read.accept .value then readPlace fuel place else return .blank

/-- Reads the members of a block mapping. -/
def readBlockMembers : Nat → Read (List (Tree × Tree))
  | 0 => failure
  | fuel + 1 => do
    if ← Read.accept .key then
      let k ← readPlace fuel .blockPart
      let t ← readValue fuel .blockPart
      return (k, t) :: (← readBlockMembers fuel)
    else
      Read.expect .blockEnd
      return []

/-- Reads the items of a flow sequence, divided by commas. -/
def readFlowItems : Nat → (isFirst : Bool) → Read (List Tree)
  | 0, _ => failure
  | fuel + 1, isFirst => do
    if ← Read.accept .flowSequenceEnd then return []
    if !isFirst then Read.expect .flowEntry
    if ← Read.accept .flowSequenceEnd then return []
    let t ← if ← Read.accept .key then readPair fuel else readNode fuel false false
    return t :: (← readFlowItems fuel false)

/-- Reads a mapping of one pair in a flow sequence. Behind a key that is missing the next mark is
passed over, whatever it is. -/
def readPair : Nat → Read Tree
  | 0 => failure
  | fuel + 1 => do
    let k ←
      match ← Read.peek with
      | some t =>
        if t = .value || t = .flowEntry || t = .flowSequenceEnd then do
          Read.drop
          pure .blank
        else readNode fuel false false
      | none => failure
    return .map [(k, ← readValue fuel .pairValue)]

/-- Reads the members of a flow mapping, divided by commas. -/
def readFlowMembers : Nat → (isFirst : Bool) → Read (List (Tree × Tree))
  | 0, _ => failure
  | fuel + 1, isFirst => do
    if ← Read.accept .flowMappingEnd then return []
    if !isFirst then Read.expect .flowEntry
    if ← Read.accept .flowMappingEnd then return []
    let m ←
      if ← Read.accept .key then do
        let k ← readPlace fuel .flowKey
        pure (k, ← readValue fuel .flowValue)
      else do
        let k ← readNode fuel false false
        pure (k, .blank)
    return m :: (← readFlowMembers fuel false)

end

/-! ## Making nodes -/

namespace Tree

mutual

/-- The named nodes of a tree in the order of the text, in front of others. -/
def namedNodes : Tree → List Tree → List Tree
  | .leaf _, found => found
  | .seq items, found => namedItems items found
  | .map members, found => namedMembers members found
  | .tagged _ body, found => body.namedNodes found
  | .named body, found => body :: body.namedNodes found
  | .alias _, found => found

/-- The named nodes of some items. -/
def namedItems : List Tree → List Tree → List Tree
  | [], found => found
  | t :: rest, found => t.namedNodes (namedItems rest found)

/-- The named nodes of some keys and values. -/
def namedMembers : List (Tree × Tree) → List Tree → List Tree
  | [], found => found
  | (k, t) :: rest, found => k.namedNodes (t.namedNodes (namedMembers rest found))

end

mutual

/-- The number of scalars, aliases and ends of containers. -/
def size : Tree → Nat
  | .leaf _ => 1
  | .seq items => 2 + sizeOfItems items
  | .map members => 2 + sizeOfMembers members
  | .tagged _ body => body.size
  | .named body => body.size
  | .alias _ => 1

/-- The size of some items together. -/
def sizeOfItems : List Tree → Nat
  | [] => 0
  | t :: rest => t.size + sizeOfItems rest

/-- The size of some keys and values together. -/
def sizeOfMembers : List (Tree × Tree) → Nat
  | [] => 0
  | (k, t) :: rest => k.size + t.size + sizeOfMembers rest

end

mutual

/-- The node of a tree that stands in `depth` containers. `target depth number` is the node of a
number there. -/
def expand (target : Nat → Nat → Node) (depth : Nat) : Tree → Node
  | .leaf scalar => scalar
  | .seq items =>
    if depth < 128 then .seq (expandItems target (depth + 1) items) .yaml else .unreadable
  | .map members =>
    if depth < 128 then .map (expandMembers target (depth + 1) members) .yaml else .unreadable
  | .tagged tag body => .tagged tag (body.expand target depth)
  | .named body => body.expand target depth
  | .alias number => .alias fun _ => target depth number

/-- The nodes of some items. -/
def expandItems (target : Nat → Nat → Node) (depth : Nat) : List Tree → List Node
  | [] => []
  | t :: rest => t.expand target depth :: expandItems target depth rest

/-- The nodes of some keys and values. -/
def expandMembers (target : Nat → Nat → Node) (depth : Nat) :
    List (Tree × Tree) → List (Node × Node)
  | [] => []
  | (k, t) :: rest =>
    (k.expand target depth, t.expand target depth) :: expandMembers target depth rest

end

/-- The node of a tree whose aliases are followed into one another at most so often: each leads into
another container, so one more than the depth of containers is enough. -/
def expandAt (trees : List (Nat × Tree)) : Nat → Nat → Tree → Node
  | 0, depth, t => t.expand (fun _ _ => .unreadable) depth
  | fuel + 1, depth, t =>
    t.expand
      (fun depth number =>
        match trees.lookup number with
        | some t => expandAt trees fuel depth t
        | none => .unreadable)
      depth

/-- The node of a tree. The numbers of its named nodes are given, the last first; of several nodes
with one number the last counts. -/
def toNode (t : Tree) (order : List Nat) : Node :=
  expandAt (order.zip (t.namedNodes []).reverse) 129 0 t

end Tree

/-! ## Documents -/

/-- A document that was read. -/
structure Document where
  /-- Its content. -/
  root : Node
  /-- The number of aliases that may be followed in decoding it. -/
  aliases : Nat

/-- The document of a tree. -/
def Document.ofTree (t : Tree) (order : List Nat) : Document :=
  ⟨t.toNode order, 100 * t.size⟩

/-- Reads the instructions before a document; the version may be named once, and the leading bytes
of a handle chosen once. -/
def readInstructions? : (hasVersion : Bool) → Leads → List Token → Option (Leads × List Token)
  | hasVersion, leads, .version :: rest =>
    if hasVersion then none else readInstructions? true leads rest
  | hasVersion, leads, .lead handle bytes :: rest =>
    if (leads.lookup handle).isSome then none
    else readInstructions? hasVersion ((handle, bytes) :: leads) rest
  | _, leads, ts => some (leads, ts)

/-- Whether an instruction or the mark that begins a document is next. -/
def opensDocument : List Token → Bool
  | .version :: _ => true
  | .lead _ _ :: _ => true
  | .documentStart :: _ => true
  | _ => false

/-- Whether a document ends before some tokens. -/
def endsBefore (ts : List Token) : Bool :=
  match ts with
  | [] => true
  | t :: _ => t = .documentEnd || opensDocument ts

/-- Reads the node of a document. -/
def readRoot? (ts : List Token) (leads : Leads) : Option (Tree × Remaining) :=
  (readNode (4 * ts.length + 4) true false).run ⟨ts, leads, [], []⟩

/-- Reads the only document of some tokens. A mark that begins it must follow instructions and may
be followed by nothing. -/
def readDocument? (ts : List Token) : Option Document := do
  let (t, left) ←
    if opensDocument ts then
      match ← readInstructions? false [] ts with
      | (leads, .documentStart :: content) =>
        if endsBefore content then some (.blank, ⟨content, [], [], []⟩)
        else readRoot? content leads
      | _ => none
    else if ts.isEmpty then some (.blank, ⟨[], [], [], []⟩)
    else readRoot? ts []
  if (left.tokens.dropWhile (· = .documentEnd)).isEmpty then return .ofTree t left.order
  else none

/-- Reads a text of one document. -/
def read? (s : List Char) : Option Document := do
  readDocument? (← Token.ofChars? s)

end TestChain.Yaml

namespace TestChain.Codec

/-- Decodes a YAML text. -/
def ofYaml {α : Type} (c : Codec α) (s : String) : Except DecodeError α :=
  match Yaml.read? s.toList with
  | some d => (c.decode d.root).run' d.aliases
  | none => .error .malformed

end TestChain.Codec
