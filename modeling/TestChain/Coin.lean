import TestChain.Codec.Record
import TestChain.Word

/-!
# Coins

A `Coin` is an amount of a denomination, and `Coins` is a set of coins. `Coins.ofList` builds a set
by adding the coins one at a time: its denominations are strictly increasing, and equal
denominations merge, with sums that stop at the largest word. Sets are also decoded as they are
written, without a test of their order (`Coins.codec`).

Coins are added and taken at a place which `Coins.search` finds by halving the list. In a list that
is out of order it finds a place too, be it the right one or not.
-/

namespace TestChain

/-- Whether a text is a denomination: 3 to 128 characters, a letter first, then letters, digits and
the marks of `/:._-`, all of them ASCII. -/
def isDenom (s : String) : Bool :=
  let size := s.utf8ByteSize
  3 ≤ size && size ≤ 128 &&
    match s.toList with
    | [] => false
    | c :: rest =>
      c.isAlpha && rest.all fun c => c.isAlphanum || ['/', ':', '.', '_', '-'].contains c

/-- A text that is no denomination. -/
structure InvalidDenom where
  /-- The text. -/
  denom : String
  deriving DecidableEq, Repr

/-- The wording of the error. -/
def InvalidDenom.message (e : InvalidDenom) : String :=
  "Invalid denomination: " ++ e.denom

/-- Refuses a text that is no denomination. -/
def checkDenom (s : String) : Except InvalidDenom Unit :=
  if isDenom s then .ok () else .error ⟨s⟩

/-- An amount of a denomination. -/
structure Coin where
  /-- The denomination. -/
  denom : String
  /-- The amount. -/
  amount : UInt64
  deriving DecidableEq, Repr

namespace Coin

/-- A coin as text: the amount, then the denomination. -/
def text (c : Coin) : String :=
  toString c.amount.toNat ++ c.denom

/-- Refuses a coin whose denomination is invalid. -/
def check (c : Coin) : Except InvalidDenom Unit :=
  checkDenom c.denom

/-- Coins are written as records. -/
def codec : Codec Coin :=
  .record <|
    (Fields.and (.required "denom" .string) (.required "amount" .uint64)).map
      (fun (denom, amount) => ⟨denom, amount⟩) (fun c => (c.denom, c.amount))

end Coin

/-- A set of coins. -/
structure Coins where
  /-- The coins of the set, in order. -/
  toList : List Coin
  deriving DecidableEq, Repr

namespace Coins

instance : Inhabited Coins := ⟨⟨[]⟩⟩

/-- The set without coins. -/
def empty : Coins := ⟨[]⟩

/-- A place in a list of coins. -/
inductive Place where
  /-- The place of a coin. -/
  | found (i : Nat)
  /-- A place where a coin can be put. -/
  | missing (i : Nat)
  deriving DecidableEq, Repr

/-- Narrows `size` coins from `base` on down to one: behind it all denominations are larger, and it
is not larger itself unless it is the first. -/
@[semireducible]
def narrow (denom : String) (cs : List Coin) (base size : Nat) : Nat :=
  if size ≤ 1 then base
  else
    let middle := base + size / 2
    let larger := cs[middle]?.any fun c => denom < c.denom
    narrow denom cs (if larger then base else middle) (size - size / 2)
termination_by size

/-- Finds the place of a denomination in a list in order. -/
def search (denom : String) (cs : List Coin) : Place :=
  let i := narrow denom cs 0 cs.length
  match cs[i]? with
  | none => .missing 0
  | some c =>
    if c.denom = denom then .found i
    else if c.denom < denom then .missing (i + 1) else .missing i

/-- The set with a coin added at a place. -/
def addAt (s : Coins) (c : Coin) : Place → Coins
  | .found i => ⟨s.toList.modify i fun d => ⟨d.denom, Word.addSat d.amount c.amount⟩⟩
  | .missing i => ⟨s.toList.insertIdx i c⟩

/-- The set with a coin added. -/
def addCoin (s : Coins) (c : Coin) : Coins :=
  s.addAt c (search c.denom s.toList)

/-- The set with the coins of another one added in order. -/
def add (s t : Coins) : Coins :=
  t.toList.foldl addCoin s

/-- The set of some coins. -/
def ofList (cs : List Coin) : Coins :=
  cs.foldl addCoin empty

/-- The set of one coin. -/
def single (amount : UInt64) (denom : String) : Coins :=
  ofList [⟨denom, amount⟩]

/-- The amount of a denomination, zero if the set has none. -/
def amountOf (s : Coins) (denom : String) : UInt64 :=
  match s.toList.find? fun c => c.denom = denom with
  | some c => c.amount
  | none => 0

/-- Whether a coin can be taken at a place, and the set after that: the coin there is lessened, and
it goes if nothing is left of it. -/
def takeAt (s : Coins) (c : Coin) : Place → Bool × Coins
  | .missing _ => (c.amount = 0, s)
  | .found i =>
    match s.toList[i]? with
    | none => (false, s)
    | some d =>
      match Word.sub? d.amount c.amount with
      | none => (false, s)
      | some left =>
        (true, ⟨if left = 0 then s.toList.eraseIdx i else s.toList.set i ⟨d.denom, left⟩⟩)

/-- The set with a coin taken from it, if it has as much. -/
def sub? (s : Coins) (c : Coin) : Option Coins :=
  match s.takeAt c (search c.denom s.toList) with
  | (true, left) => some left
  | (false, _) => none

/-- Refuses a set with an invalid denomination, the first of them. -/
def check (s : Coins) : Except InvalidDenom Unit :=
  s.toList.forM Coin.check

/-- The number of coins in the set. -/
def size (s : Coins) : Nat :=
  s.toList.length

/-- Whether no coin of the set has an amount. -/
def isEmpty (s : Coins) : Bool :=
  s.toList.all fun c => c.amount = 0

/-- A set as text: its coins, divided by commas. -/
def text (s : Coins) : String :=
  String.intercalate "," (s.toList.map Coin.text)

/-- Sets are written as arrays of their coins. -/
def codec : Codec Coins :=
  (Codec.list Coin.codec).map (⟨·⟩) toList

/-- A set in which the denominations are strictly increasing. -/
def Sorted (s : Coins) : Prop :=
  s.toList.Pairwise fun c d => c.denom < d.denom

end Coins

end TestChain
