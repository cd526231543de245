import TestChain.Json.Writer

/-!
# Layouts of JSON texts

The two ways in which a value is written differ only in the blanks between the tokens. A `Layout`
says which they are, `Json.laidOut` writes a value in a layout, and `compactChars_eq` and
`prettyChars_eq` are the two layouts in use.
-/

namespace TestChain

/-- The blanks between the tokens of a text. -/
structure Layout where
  /-- The blanks before an item or a member of a level, and before a closing bracket. -/
  newLine : Nat → List Char
  /-- The blanks after a colon. -/
  gap : List Char

namespace Layout

/-- No blanks. -/
def compact : Layout := ⟨fun _ => [], []⟩

/-- One item or member a line. -/
def pretty : Layout := ⟨Json.newLine, [' ']⟩

end Layout

namespace Json

mutual

/-- A value that starts at the given level, in a layout. -/
def laidOut (l : Layout) (level : Nat) : Json → List Char
  | .null => ['n', 'u', 'l', 'l']
  | .bool true => ['t', 'r', 'u', 'e']
  | .bool false => ['f', 'a', 'l', 's', 'e']
  | .num n => n.text
  | .str s => quoteText s
  | .arr [] => ['[', ']']
  | .arr (j :: rest) =>
    '[' :: l.newLine (level + 1) ++ laidOut l (level + 1) j ++ laidOutItems l level rest
  | .obj [] => ['\x7b', '\x7d']
  | .obj ((n, j) :: rest) =>
    '\x7b' :: l.newLine (level + 1) ++ quoteText n ++ ':' :: l.gap ++ laidOut l (level + 1) j ++
      laidOutMembers l level rest

/-- The items after the first of an array at the given level, up to its bracket. -/
def laidOutItems (l : Layout) (level : Nat) : List Json → List Char
  | [] => l.newLine level ++ [']']
  | j :: rest =>
    ',' :: l.newLine (level + 1) ++ laidOut l (level + 1) j ++ laidOutItems l level rest

/-- The members after the first of an object at the given level, up to its brace. -/
def laidOutMembers (l : Layout) (level : Nat) : List (String × Json) → List Char
  | [] => l.newLine level ++ ['\x7d']
  | (n, j) :: rest =>
    ',' :: l.newLine (level + 1) ++ quoteText n ++ ':' :: l.gap ++ laidOut l (level + 1) j ++
      laidOutMembers l level rest

end

mutual

/-- A value without blanks is laid out without blanks. -/
theorem compactChars_eq (level : Nat) : (j : Json) →
    j.compactChars = j.laidOut .compact level
  | .null => rfl
  | .bool true => rfl
  | .bool false => rfl
  | .num n => rfl
  | .str s => rfl
  | .arr [] => rfl
  | .arr (j :: rest) => by
    simp only [compactChars, laidOut, compactChars_eq (level + 1) j, compactItems_eq level rest]
    rfl
  | .obj [] => rfl
  | .obj ((n, j) :: rest) => by
    simp only [compactChars, laidOut, compactChars_eq (level + 1) j, compactMembers_eq level rest]
    simp [Layout.compact]

/-- Items without blanks are laid out without blanks. -/
theorem compactItems_eq (level : Nat) : (items : List Json) →
    compactItems items = laidOutItems .compact level items
  | [] => rfl
  | j :: rest => by
    simp only [compactItems, laidOutItems, compactChars_eq (level + 1) j,
      compactItems_eq level rest]
    rfl

/-- Members without blanks are laid out without blanks. -/
theorem compactMembers_eq (level : Nat) : (members : List (String × Json)) →
    compactMembers members = laidOutMembers .compact level members
  | [] => rfl
  | (n, j) :: rest => by
    simp only [compactMembers, laidOutMembers, compactChars_eq (level + 1) j,
      compactMembers_eq level rest]
    simp [Layout.compact]

end

mutual

/-- A value with one item or member a line is laid out so. -/
theorem prettyChars_eq (level : Nat) : (j : Json) →
    j.prettyChars level = j.laidOut .pretty level
  | .null => rfl
  | .bool true => rfl
  | .bool false => rfl
  | .num n => rfl
  | .str s => rfl
  | .arr [] => rfl
  | .arr (j :: rest) => by
    simp only [prettyChars, laidOut, prettyChars_eq (level + 1) j, prettyItems_eq level rest]
    rfl
  | .obj [] => rfl
  | .obj ((n, j) :: rest) => by
    simp only [prettyChars, laidOut, prettyChars_eq (level + 1) j, prettyMembers_eq level rest]
    simp [Layout.pretty]

/-- Items one a line are laid out so. -/
theorem prettyItems_eq (level : Nat) : (items : List Json) →
    prettyItems level items = laidOutItems .pretty level items
  | [] => rfl
  | j :: rest => by
    simp only [prettyItems, laidOutItems, prettyChars_eq (level + 1) j, prettyItems_eq level rest]
    rfl

/-- Members one a line are laid out so. -/
theorem prettyMembers_eq (level : Nat) : (members : List (String × Json)) →
    prettyMembers level members = laidOutMembers .pretty level members
  | [] => rfl
  | (n, j) :: rest => by
    simp only [prettyMembers, laidOutMembers, prettyChars_eq (level + 1) j,
      prettyMembers_eq level rest]
    simp [Layout.pretty]

end

end Json

end TestChain
