/-
Blank characters.

A blank is a character with the Unicode White_Space property. Settings files, profiles and request lines are read
with their blanks trimmed, and a request line is cut into words at its blanks. Case is folded over ASCII only, so a
letter outside ASCII never becomes part of a known word.
-/
namespace EdgeTunnel.Text

/-- the characters with the White_Space property -/
def isBlank (c : Char) : Bool :=
  let n := c.toNat
  (9 ≤ n && n ≤ 13) || n == 0x20 || n == 0x85 || n == 0xA0 || n == 0x1680 || (0x2000 ≤ n && n ≤ 0x200A) ||
    n == 0x2028 || n == 0x2029 || n == 0x202F || n == 0x205F || n == 0x3000

def trimRight (s : List Char) : List Char := (s.reverse.dropWhile isBlank).reverse

def trim (s : List Char) : List Char := trimRight (s.dropWhile isBlank)

/-- does a text neither begin nor end with a blank? -/
def Trimmed (s : List Char) : Prop := (∀ c ∈ s.head?, isBlank c = false) ∧ ∀ c ∈ s.getLast?, isBlank c = false

def Blanks (s : List Char) : Prop := ∀ c ∈ s, isBlank c = true

/-- the longest runs without a blank, in order -/
def words : List Char → List (List Char)
  | [] => []
  | c :: r =>
    if isBlank c then words r
    else
      match r, words r with
      | [], _ => [[c]]
      | d :: _, ws =>
        if isBlank d then [c] :: ws
        else
          match ws with
          | [] => [[c]]
          | w :: rest => (c :: w) :: rest

/-- upper case, ASCII letters only -/
def upper (s : List Char) : List Char := s.map Char.toUpper

/-- lower case, ASCII letters only -/
def lower (s : List Char) : List Char := s.map Char.toLower

section
variable {α : Type} [DecidableEq α]

/-- what stands before the first `c` and what stands after it, when there is one -/
def splitAt? (c : α) : List α → Option (List α × List α)
  | [] => none
  | d :: r => if d = c then some ([], r) else (splitAt? c r).map fun p => (d :: p.1, p.2)

/-- the pieces between the `c`s; without one there is one piece -/
def pieces (c : α) : List α → List (List α)
  | [] => [[]]
  | d :: r =>
    if d = c then [] :: pieces c r
    else
      match pieces c r with
      | [] => [[d]]
      | p :: ps => (d :: p) :: ps

end

def dropReturn (s : List Char) : List Char :=
  match s.reverse with
  | '\r' :: r => r.reverse
  | _ => s

/-- the lines of a text: a line ends with a line feed, a carriage return before it belongs to the ending, and text
after the last line feed is a line of its own -/
def lines (s : List Char) : List (List Char) :=
  match (pieces '\n' s).reverse with
  | [] => []
  | last :: ended =>
    let done := (ended.map dropReturn).reverse
    if last.isEmpty then done else done ++ [last]

/-- the text of lines that are each ended by a line feed -/
def terminated (ls : List (List Char)) : List Char := ls.flatMap (· ++ ['\n'])

/-- `s` without the leading `p`, when it starts with `p` -/
def stripStart? : (p s : List Char) → Option (List Char)
  | [], s => some s
  | _ :: _, [] => none
  | a :: p, b :: s => if a = b then stripStart? p s else none

/-- every occurrence of a non-empty `p` replaced by `q`, found from left to right without overlap -/
def replaceAll (p q : List Char) (s : List Char) : List Char :=
  go s.length s
where
  go : Nat → List Char → List Char
    | 0, s => s
    | _ + 1, [] => []
    | n + 1, c :: r =>
      if p.isEmpty then c :: r
      else
        match stripStart? p (c :: r) with
        | some rest => q ++ go n rest
        | none => c :: go n r

end EdgeTunnel.Text
