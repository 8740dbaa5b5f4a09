/-
The grammar of JSON text.

`SpellsPadded x t` says that `t` writes the value `x` with blanks around it, as the format allows it to be written: with
blanks wherever they may stand, every character of a string alone or as an escape, and every number with its fraction and
exponent. What a text means is told from how it is spelled, so a value has many texts and a text has one value.
-/
import EdgeTunnel.Document.Json

namespace EdgeTunnel.Json

/-- is a text made of the blanks of the format? -/
def Blanks (b : List Char) : Prop := ∀ c ∈ b, c = ' ' ∨ c = '\t' ∨ c = '\n' ∨ c = '\r'

/-! ## Strings -/

/-- the letters that stand for a character after a backslash -/
def letters : List (Char × Char) :=
  [('"', '"'), ('\\', '\\'), ('/', '/'), ('b', '\x08'), ('f', '\x0c'), ('n', '\n'), ('r', '\r'), ('t', '\t')]

inductive SpellsPiece : Piece → List Char → Prop where
  | plain {c : Char} (low : 0x20 ≤ c.toNat) (quote : c ≠ '"') (slash : c ≠ '\\') : SpellsPiece (.char c) [c]
  | letter {e c : Char} (known : (e, c) ∈ letters) : SpellsPiece (.char c) ['\\', e]
  | unit {a b c d : Char} (digits : ∀ x ∈ [a, b, c, d], Text.isDigitOf 16 x = true) :
    SpellsPiece (.unit (Text.valueOf 16 [a, b, c, d])) ['\\', 'u', a, b, c, d]

inductive SpellsPieces : List Piece → List Char → Prop where
  | nil : SpellsPieces [] []
  | cons {p : Piece} {ps : List Piece} {t r : List Char} (first : SpellsPiece p t) (more : SpellsPieces ps r) :
    SpellsPieces (p :: ps) (t ++ r)

/-- a string between its quotes, with the text that it has if no half of a surrogate pair stands alone -/
inductive SpellsString : Option String → List Char → Prop where
  | quoted {ps : List Piece} {t : List Char} (pieces : SpellsPieces ps t) :
    SpellsString ((Piece.join ps).map String.ofList) ('"' :: (t ++ ['"']))

/-! ## Numbers -/

def Digits (ds : List Char) : Prop := ds ≠ [] ∧ ∀ c ∈ ds, Text.isDigitOf 10 c = true

inductive SpellsFraction : Bool → List Char → Prop where
  | absent : SpellsFraction false []
  | present {ds : List Char} (digits : Digits ds) : SpellsFraction true ('.' :: ds)

inductive SpellsExponent : Bool → List Char → Prop where
  | absent : SpellsExponent false []
  | present {mark : Char} {sign ds : List Char} (marked : mark = 'e' ∨ mark = 'E')
    (signed : sign = [] ∨ sign = ['+'] ∨ sign = ['-']) (digits : Digits ds) :
    SpellsExponent true (mark :: (sign ++ ds))

/-! ## Values -/

mutual

/-- a value without blanks around it -/
inductive Spells : Data → List Char → Prop where
  | null : Spells .null ['n', 'u', 'l', 'l']
  | yes : Spells (.bool true) ['t', 'r', 'u', 'e']
  | no : Spells (.bool false) ['f', 'a', 'l', 's', 'e']
  | number {f e : Bool} {fraction exponent : List Char} (negative : Bool) (n : Nat) (hf : SpellsFraction f fraction)
    (he : SpellsExponent e exponent) :
    Spells (if f || e then .real else whole negative n)
      ((if negative then ['-'] else []) ++ (Text.decimal n ++ (fraction ++ exponent)))
  | text {s : Option String} {t : List Char} (string : SpellsString s t) : Spells (.text s) t
  | noElements {b : List Char} (blanks : Blanks b) : Spells (.list []) ('[' :: (b ++ [']']))
  | list {xs : List Data} {t : List Char} (elements : SpellsElements xs t) : Spells (.list xs) ('[' :: (t ++ [']']))
  | noMembers {b : List Char} (blanks : Blanks b) : Spells (.record []) ('\x7b' :: (b ++ ['\x7d']))
  | record {fs : List (Option String × Data)} {t : List Char} (members : SpellsMembers fs t) :
    Spells (.record fs) ('\x7b' :: (t ++ ['\x7d']))

/-- a value with blanks around it -/
inductive SpellsPadded : Data → List Char → Prop where
  | padded {x : Data} {before t after : List Char} (hb : Blanks before) (value : Spells x t) (ha : Blanks after) :
    SpellsPadded x (before ++ (t ++ after))

/-- the elements of a list, with commas between -/
inductive SpellsElements : List Data → List Char → Prop where
  | last {x : Data} {t : List Char} (value : SpellsPadded x t) : SpellsElements [x] t
  | next {x : Data} {xs : List Data} {t r : List Char} (value : SpellsPadded x t) (more : SpellsElements xs r) :
    SpellsElements (x :: xs) (t ++ ',' :: r)

/-- a key and its value, with a colon between -/
inductive SpellsMember : Option String × Data → List Char → Prop where
  | member {k : Option String} {x : Data} {before q after t : List Char} (hb : Blanks before) (key : SpellsString k q)
    (ha : Blanks after) (value : SpellsPadded x t) : SpellsMember (k, x) (before ++ (q ++ (after ++ ':' :: t)))

inductive SpellsMembers : List (Option String × Data) → List Char → Prop where
  | last {m : Option String × Data} {t : List Char} (member : SpellsMember m t) : SpellsMembers [m] t
  | next {m : Option String × Data} {ms : List (Option String × Data)} {t r : List Char} (member : SpellsMember m t)
    (more : SpellsMembers ms r) : SpellsMembers (m :: ms) (t ++ ',' :: r)

end

end EdgeTunnel.Json
