import TestChain.Json.Reader

/-!
# The grammar of JSON

A JSON text is derived from a term (`Reading.Derives`), which keeps the pieces of texts and the
parts of numerals as they are written and the members of objects in their order, with all
repetitions. Blanks may stand around every token. A term stands for a value (`Reading.Term.value?`)
unless a part has none, such as a numeral out of range. What the reader makes of a term is its tree
(`Reading.Term.node`), where such parts and containers nested too deeply are unreadable.
-/

namespace TestChain.Reading

/-- All characters are blanks. -/
def Blanks (b : List Char) : Prop :=
  ∀ c ∈ b, isBlank c = true

/-! ## Tokens -/

/-- A piece of a text as it is written. -/
inductive PieceText : Piece → List Char → Prop where
  /-- A character that stands for itself. -/
  | plain {c : Char} (hquote : c ≠ '"') (hslash : c ≠ '\\') (hcontrol : 0x20 ≤ c.toNat) :
      PieceText (.char c) [c]
  /-- A character by its letter. -/
  | letter {c x : Char} (h : letter? c = some x) : PieceText (.char x) ['\\', c]
  /-- A unit of UTF-16 by its number. -/
  | unit {a b c d : Char} {n : Nat} (h : unit? a b c d = some n) :
      PieceText (.unit n) ['\\', 'u', a, b, c, d]

/-- The pieces of a text as they are written after the opening quote, up to the closing one. -/
inductive Quoted : List Piece → List Char → Prop where
  /-- The closing quote. -/
  | close : Quoted [] ['"']
  /-- A piece and those after it. -/
  | piece {p : Piece} {ps : List Piece} {w s : List Char} (hp : PieceText p w) (h : Quoted ps s) :
      Quoted (p :: ps) (w ++ s)

/-- At least one digit. -/
def Digits (ds : List Char) : Prop :=
  ds ≠ [] ∧ ∀ c ∈ ds, c.isDigit = true

/-- The fraction of a numeral as it is written. -/
inductive FractionText : Option (List Char) → List Char → Prop where
  /-- There is none. -/
  | absent : FractionText none []
  /-- Digits after a point. -/
  | point {ds : List Char} (h : Digits ds) : FractionText (some ds) ('.' :: ds)

/-- The exponent of a numeral as it is written. -/
inductive ExponentText : Option (Bool × List Char) → List Char → Prop where
  /-- There is none. -/
  | absent : ExponentText none []
  /-- Digits without a sign. -/
  | bare {c : Char} {ds : List Char} (hc : c = 'e' ∨ c = 'E') (h : Digits ds) :
      ExponentText (some (false, ds)) (c :: ds)
  /-- Digits after a plus sign. -/
  | plus {c : Char} {ds : List Char} (hc : c = 'e' ∨ c = 'E') (h : Digits ds) :
      ExponentText (some (false, ds)) (c :: '+' :: ds)
  /-- Digits after a minus sign. -/
  | minus {c : Char} {ds : List Char} (hc : c = 'e' ∨ c = 'E') (h : Digits ds) :
      ExponentText (some (true, ds)) (c :: '-' :: ds)

/-- A numeral as it is written, after its sign. Only the number zero begins with a zero. -/
inductive NumeralText : Numeral → List Char → Prop where
  /-- The digits before the point, the fraction and the exponent. -/
  | parts {negative : Bool} {whole f e : List Char} {fraction : Option (List Char)}
      {exponent : Option (Bool × List Char)} (hwhole : Digits whole)
      (hzero : whole.head? = some '0' → whole = ['0']) (hf : FractionText fraction f)
      (he : ExponentText exponent e) :
      NumeralText ⟨negative, whole, fraction, exponent⟩ (whole ++ (f ++ e))

/-! ## Values -/

/-- A JSON text by its structure. -/
inductive Term where
  /-- The value `null`. -/
  | null
  /-- A truth value. -/
  | bool (value : Bool)
  /-- A numeral. -/
  | num (numeral : Numeral)
  /-- A text. -/
  | str (pieces : List Piece)
  /-- An array. -/
  | arr (items : List Term)
  /-- An object. -/
  | obj (members : List (List Piece × Term))

/-- The parts of a text that the grammar knows. -/
inductive Phrase where
  /-- A value. -/
  | value (t : Term)
  /-- The items of an array, at least one, and its closing bracket. -/
  | items (ts : List Term)
  /-- The items of an array after another one, and its closing bracket. -/
  | moreItems (ts : List Term)
  /-- The members of an object, at least one, and its closing brace. -/
  | members (ms : List (List Piece × Term))
  /-- The members of an object after another one, and its closing brace. -/
  | moreMembers (ms : List (List Piece × Term))

/-- The grammar derives the text from the phrase. -/
inductive Derives : Phrase → List Char → Prop where
  /-- The value `null`. -/
  | nullWord : Derives (.value .null) ['n', 'u', 'l', 'l']
  /-- The value `true`. -/
  | trueWord : Derives (.value (.bool true)) ['t', 'r', 'u', 'e']
  /-- The value `false`. -/
  | falseWord : Derives (.value (.bool false)) ['f', 'a', 'l', 's', 'e']
  /-- A numeral without a sign. -/
  | num {x : Numeral} {s : List Char} (hsign : x.negative = false) (h : NumeralText x s) :
      Derives (.value (.num x)) s
  /-- A numeral with a minus sign. -/
  | negative {x : Numeral} {s : List Char} (hsign : x.negative = true) (h : NumeralText x s) :
      Derives (.value (.num x)) ('-' :: s)
  /-- A text between quotes. -/
  | str {ps : List Piece} {s : List Char} (h : Quoted ps s) : Derives (.value (.str ps)) ('"' :: s)
  /-- An array without items. -/
  | noItems {b : List Char} (hb : Blanks b) : Derives (.value (.arr [])) ('[' :: (b ++ [']']))
  /-- An array with items. -/
  | arr {ts : List Term} {s : List Char} (h : Derives (.items ts) s) :
      Derives (.value (.arr ts)) ('[' :: s)
  /-- An object without members. -/
  | noMembers {b : List Char} (hb : Blanks b) :
      Derives (.value (.obj [])) ('\x7b' :: (b ++ ['\x7d']))
  /-- An object with members. -/
  | obj {ms : List (List Piece × Term)} {s : List Char} (h : Derives (.members ms) s) :
      Derives (.value (.obj ms)) ('\x7b' :: s)
  /-- An item and those after it. -/
  | items {t : Term} {ts : List Term} {b s r : List Char} (hb : Blanks b)
      (h : Derives (.value t) s) (hr : Derives (.moreItems ts) r) :
      Derives (.items (t :: ts)) (b ++ (s ++ r))
  /-- The end of an array. -/
  | lastItem {b : List Char} (hb : Blanks b) : Derives (.moreItems []) (b ++ [']'])
  /-- A comma and the items after it. -/
  | nextItem {ts : List Term} {b s : List Char} (hb : Blanks b) (h : Derives (.items ts) s) :
      Derives (.moreItems ts) (b ++ ',' :: s)
  /-- A member and those after it. -/
  | members {ps : List Piece} {t : Term} {ms : List (List Piece × Term)} {b k b₁ b₂ s r : List Char}
      (hb : Blanks b) (hk : Quoted ps k) (hb₁ : Blanks b₁) (hb₂ : Blanks b₂)
      (h : Derives (.value t) s) (hr : Derives (.moreMembers ms) r) :
      Derives (.members ((ps, t) :: ms)) (b ++ '"' :: (k ++ (b₁ ++ ':' :: (b₂ ++ (s ++ r)))))
  /-- The end of an object. -/
  | lastMember {b : List Char} (hb : Blanks b) : Derives (.moreMembers []) (b ++ ['\x7d'])
  /-- A comma and the members after it. -/
  | nextMember {ms : List (List Piece × Term)} {b s : List Char} (hb : Blanks b)
      (h : Derives (.members ms) s) : Derives (.moreMembers ms) (b ++ ',' :: s)

/-- The text has the structure of the term, with blanks around it. -/
def Writes (t : Term) (s : List Char) : Prop :=
  ∃ b w b', Blanks b ∧ Derives (.value t) w ∧ Blanks b' ∧ s = b ++ (w ++ b')

/-! ## Values of terms -/

mutual

/-- The value that a term stands for, with all members as they are written. -/
def Term.value? : Term → Option Json
  | .null => some .null
  | .bool b => some (.bool b)
  | .num x => x.value?.map .num
  | .str ps => (join ps).map fun cs => .str (String.ofList cs)
  | .arr items => (Term.values? items).map .arr
  | .obj members => (Term.memberValues? members).map .obj

/-- The values that items stand for. -/
def Term.values? : List Term → Option (List Json)
  | [] => some []
  | t :: ts =>
    match t.value?, Term.values? ts with
    | some j, some js => some (j :: js)
    | _, _ => none

/-- The names and values that members stand for. -/
def Term.memberValues? : List (List Piece × Term) → Option (List (String × Json))
  | [] => some []
  | (ps, t) :: ms =>
    match join ps, t.value?, Term.memberValues? ms with
    | some cs, some j, some js => some ((String.ofList cs, j) :: js)
    | _, _, _ => none

end

/-! ## Trees -/

/-- The node of a numeral. -/
def numeralNode (x : Numeral) : Node :=
  match x.value? with
  | some n => .num n
  | none => .unreadable

/-- The node of the pieces of a text. -/
def piecesNode (ps : List Piece) : Node :=
  match join ps with
  | some cs => .str (String.ofList cs)
  | none => .unreadable

mutual

/-- The tree of a term that stands in `depth` containers. -/
def Term.node (depth : Nat) : Term → Node
  | .null => .null
  | .bool b => .bool b
  | .num x => numeralNode x
  | .str ps => piecesNode ps
  | .arr items => container depth (.seq (Term.nodes (depth + 1) items) (.text true)) true
  | .obj members => container depth (.map (Term.memberNodes (depth + 1) members) (.text true)) true

/-- The trees of the items of an array. -/
def Term.nodes (depth : Nat) : List Term → List Node
  | [] => []
  | t :: ts => t.node depth :: Term.nodes depth ts

/-- The trees of the members of an object. -/
def Term.memberNodes (depth : Nat) : List (List Piece × Term) → List (Node × Node)
  | [] => []
  | (ps, t) :: ms => (piecesNode ps, t.node depth) :: Term.memberNodes depth ms

end

end TestChain.Reading
