import TestChain.Genesis.Error
import TestChain.Genesis.StateHash
import TestChain.Text.Utf8

/-!
# Genesis documents

A `GenesisDocument` holds the initial states of the modules of a chain as free values, in an order
and no module twice. It is read from JSON text (`ofBytes`), where a repeated module is an error, and
written with one member a line (`text`). `get` decodes the state of a module by its type.
-/

namespace TestChain

/-- The initial states of modules. -/
structure GenesisDocument where
  /-- The modules and their states, in order. -/
  modules : Members Json
  /-- No module comes twice. -/
  nodup : modules.names.Nodup

namespace GenesisDocument

/-- The document without modules. -/
def empty : GenesisDocument := ⟨[], List.nodup_nil⟩

/-- The document with the state of a module, at its place or at the end. -/
def insertRaw (d : GenesisDocument) (name : String) (state : Json) : GenesisDocument :=
  ⟨Members.put name state d.modules, Members.nodup_put d.nodup⟩

/-- The state of a module. -/
def getRaw? (d : GenesisDocument) (name : String) : Option Json :=
  d.modules.lookup name

/-- Whether there is a state of a module. -/
def contains (d : GenesisDocument) (name : String) : Bool :=
  (d.getRaw? name).isSome

/-- The names of the modules, in order. -/
def names (d : GenesisDocument) : List String :=
  d.modules.names

/-- The document without a module. -/
def erase (d : GenesisDocument) (name : String) : GenesisDocument :=
  ⟨Members.erase name d.modules, Members.nodup_erase d.nodup⟩

/-- Adds a module that must be new. -/
def addEntry (d : GenesisDocument) (entry : String × Json) : Except GenesisError GenesisDocument :=
  if d.contains entry.1 then .error (.duplicateModule entry.1)
  else .ok (d.insertRaw entry.1 entry.2)

/-- The document of some modules, none of which may come twice. -/
def ofEntries (entries : List (String × Json)) : Except GenesisError GenesisDocument :=
  entries.foldlM addEntry empty

/-- The document of members of which the last of a name counts. -/
def ofMembers (members : Members Json) : GenesisDocument :=
  members.foldl (fun d m => d.insertRaw m.1 m.2) empty

/-- Decodes a document: all members first, then the test that none comes twice. -/
def decode (n : Node) : Decoding GenesisDocument := do
  match ← n.content with
  | .map members origin =>
    origin.within do
      let entries ← Node.membersToJson members
      origin.close
      match ofEntries entries with
      | .ok d => return d
      | .error e => throw (.ofReason e.message)
  | _ => throw .malformed

/-- Documents are written as objects. -/
def codec : Codec GenesisDocument := ⟨fun d => .obj d.modules, decode⟩

/-- Reads the text of a document. -/
def ofBytes (b : ByteArray) : Except GenesisError GenesisDocument :=
  (codec.ofChars (Text.ofUtf8 b)).mapError .json

/-- The text of a document. -/
def text (d : GenesisDocument) : String :=
  (codec.encode d).pretty

/-- The document with the state of a module given by its type. -/
def insert {α : Type} (d : GenesisDocument) (name : String) (c : Codec α) (state : α) :
    GenesisDocument :=
  d.insertRaw name (c.toJson state)

/-- Decodes the state of a module. -/
def decodeState {α : Type} (name : String) (c : Codec α) (state : Json) : Except GenesisError α :=
  (c.ofJson state).mapError (.invalidModuleState name)

/-- The state of a module that must be there. -/
def get {α : Type} (d : GenesisDocument) (name : String) (c : Codec α) : Except GenesisError α :=
  match d.getRaw? name with
  | some state => decodeState name c state
  | none => .error (.missingModule name)

/-- The state of a module, or another one if it is missing. -/
def getD {α : Type} (d : GenesisDocument) (name : String) (c : Codec α) (default : α) :
    Except GenesisError α :=
  match d.getRaw? name with
  | some state => decodeState name c state
  | none => .ok default

/-- The hash of the modules' states. -/
def stateHash (d : GenesisDocument) : Hash :=
  StateHash.ofModules d.modules

/-- Whether two documents have the same modules with the same states, in any order. -/
def same (d e : GenesisDocument) : Bool :=
  d.modules.length == e.modules.length &&
    d.modules.all fun m => (e.getRaw? m.1).any (Json.same m.2)

end GenesisDocument

end TestChain
