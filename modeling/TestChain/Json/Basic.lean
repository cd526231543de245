import TestChain.Members

/-!
# JSON values

`Json` is the type of JSON values. An object is a list of members, so that a record can be written
with its members in the order of its declaration; a free value keeps them in increasing order of
their names (`Json.sorted`), each name once. A number is a whole number of 64 bits, signed or not,
or a double.
-/

namespace TestChain

/-- Whether a whole number fits in 64 bits, signed or unsigned. -/
abbrev fitsWord (value : Int) : Prop :=
  -9223372036854775808 ≤ value ∧ value < 18446744073709551616

/-- A JSON number. -/
inductive Number where
  /-- A whole number of 64 bits. -/
  | whole (value : Int) (fits : fitsWord value)
  /-- A double. -/
  | float (value : Float)
  deriving DecidableEq

/-- A JSON value. -/
inductive Json where
  /-- The value `null`. -/
  | null
  /-- A truth value. -/
  | bool (value : Bool)
  /-- A number. -/
  | num (value : Number)
  /-- A text. -/
  | str (value : String)
  /-- An array. -/
  | arr (items : List Json)
  /-- An object, as the list of its members. -/
  | obj (members : List (String × Json))

namespace Number

/-- An unsigned number of 64 bits. -/
def ofUInt64 (n : UInt64) : Number :=
  .whole n.toNat ⟨by omega, by have := n.toNat_lt; omega⟩

/-- A signed number of 64 bits. -/
def ofInt64 (n : Int64) : Number :=
  .whole n.toInt ⟨by have := n.le_toInt; omega, by have := n.toInt_lt; omega⟩

/-- A number that fits in 64 bits, signed or not. -/
def ofInt? (n : Int) : Option Number :=
  if h : fitsWord n then some (.whole n h) else none

/-- Whether two numbers are the same value. A whole number is never a double. -/
def same : Number → Number → Bool
  | .whole a _, .whole b _ => a == b
  | .float a, .float b => a == b
  | _, _ => false

end Number

namespace Json

instance : Inhabited Json := ⟨.null⟩

/-- An unsigned number of 64 bits. -/
def nat (n : UInt64) : Json :=
  .num (.ofUInt64 n)

mutual

/-- The same value with the members of every object in increasing order of their names. -/
def sorted : Json → Json
  | .arr items => .arr (sortedItems items)
  | .obj members => .obj (Members.sorted (sortedMembers members))
  | j => j

/-- `sorted` of every item. -/
def sortedItems : List Json → List Json
  | [] => []
  | j :: rest => j.sorted :: sortedItems rest

/-- `sorted` of every member's value. -/
def sortedMembers : List (String × Json) → List (String × Json)
  | [] => []
  | (n, j) :: rest => (n, j.sorted) :: sortedMembers rest

end

mutual

/-- Whether two values are the same, member by member. -/
def same : Json → Json → Bool
  | .null, .null => true
  | .bool a, .bool b => a == b
  | .num a, .num b => a.same b
  | .str a, .str b => a == b
  | .arr a, .arr b => sameItems a b
  | .obj a, .obj b => sameMembers a b
  | _, _ => false

/-- Whether two lists hold the same values. -/
def sameItems : List Json → List Json → Bool
  | [], [] => true
  | a :: as, b :: bs => a.same b && sameItems as bs
  | _, _ => false

/-- Whether two lists hold the same members. -/
def sameMembers : List (String × Json) → List (String × Json) → Bool
  | [], [] => true
  | (n, a) :: as, (m, b) :: bs => n == m && a.same b && sameMembers as bs
  | _, _ => false

end

/-- The value of a member of an object. -/
def get? (name : String) : Json → Option Json
  | .obj members => members.lookup name
  | _ => none

end Json

end TestChain
