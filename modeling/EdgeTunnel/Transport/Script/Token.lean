/-
The words and signs of a command script.

A word is made of characters and parameters, each quoted or not. Comments and blanks between words are dropped. A quote that is
not closed ends the tokens.
-/
namespace EdgeTunnel.Transport.Script

inductive Piece where
  | char (c : Char) (quoted : Bool)
  | parameter (name : List Char) (quoted : Bool)
  /-- a place where quotes were, so that the word is there even if it is empty -/
  | edge
  deriving DecidableEq

/-- the character of a piece that is not quoted -/
def Piece.bare? : Piece → Option Char
  | .char c false => some c
  | _ => none

/-- a word before its parameters are filled in -/
abbrev Word := List Piece

inductive Token where
  | word (w : Word)
  | operator (s : String)
  | redirection
  /-- a quote that is not closed -/
  | broken
  deriving DecidableEq

/-- may the character stand in a name? -/
def isNameChar (c : Char) : Bool := c.isAlphanum || c == '_'

/-- the parameters with a name of one character that is not a letter -/
def isSpecial (c : Char) : Bool := c.isDigit || ['#', '@', '*', '?', '$', '!', '-'].contains c

/-- the name of a parameter after the dollar sign, and how many characters it takes -/
def parameter? : List Char → Option (List Char × Nat)
  | [] => none
  | c :: r =>
    let name := r.takeWhile isNameChar
    if c == '\x7b' then
      if !name.isEmpty && r[name.length]? == some '\x7d' then some (name, name.length + 2)
      else
        match r with
        | d :: '\x7d' :: _ => if isSpecial d then some ([d], 3) else none
        | _ => none
    else if isSpecial c then some ([c], 1)
    else if isNameChar c then some (c :: name, name.length + 1)
    else none

def endsWord (c : Char) : Bool := [' ', '\t', '\n', ';', '&', '|', '(', ')', '<', '>'].contains c

/-- where in a word a character stands -/
inductive Quoting where
  | plain
  | single
  | double
  deriving DecidableEq

def push (p : Piece) (x : Option (Word × List Char)) : Option (Word × List Char) := x.map fun (w, r) => (p :: w, r)

/-- the pieces of a word and the text after it, unless a quote is not closed -/
def word (q : Quoting) (s : List Char) : Option (Word × List Char) :=
  match s with
  | [] => if q = .plain then some ([], []) else none
  | c :: r =>
    match q with
    | .single => if c = '\'' then word .plain r else push (.char c true) (word .single r)
    | .plain | .double =>
      let quoted := q == .double
      match c, r with
      | '\\', d :: r =>
        if d = '\n' then word q r
        else if !quoted || ['$', '"', '\\', '\x60'].contains d then push (.char d true) (word q r)
        else push (.char '\\' true) (push (.char d true) (word q r))
      | '$', r =>
        match parameter? r with
        | some (name, n) => push (.parameter name quoted) (word q (r.drop n))
        | none => push (.char '$' quoted) (word q r)
      | '"', r => push .edge (word (if quoted then .plain else .double) r)
      | c, r =>
        if quoted then push (.char c true) (word q r)
        else if c = '\'' then push .edge (word .single r)
        else if endsWord c then some ([], c :: r)
        else push (.char c false) (word q r)
termination_by s.length
decreasing_by all_goals simp_all only [List.length_cons, List.length_drop]; omega

/-- the operators, longer ones first -/
def operators : List (List Char) :=
  [['&', '&'], ['|', '|'], [';', ';'], [';'], ['&'], ['|'], ['('], [')'], ['\n']]

/-- the redirections, longer ones first -/
def redirections : List (List Char) :=
  [['<', '<', '-'], ['<', '<'], ['>', '>'], ['<', '&'], ['>', '&'], ['<', '>'], ['>', '|'], ['<'], ['>']]

/-- the first of these texts that `s` starts with -/
def startOf? (texts : List (List Char)) (s : List Char) : Option (List Char) := texts.find? fun t => t.isPrefixOf s

/-- is this a number right before a redirection? -/
def isChannel (w : Word) (rest : List Char) : Bool :=
  (startOf? redirections rest).isSome && w.all fun p => p.bare?.any Char.isDigit

def tokens (s : List Char) : List Token :=
  match s with
  | [] => []
  | c :: r =>
    if c = ' ' ∨ c = '\t' then tokens r
    else if c = '#' then tokens (r.drop (r.takeWhile (· != '\n')).length)
    else if c = '\\' ∧ r.head? = some '\n' then tokens (r.drop 1)
    else
      match startOf? operators (c :: r) with
      | some t => .operator (String.ofList t) :: tokens (r.drop (t.length - 1))
      | none =>
        match startOf? redirections (c :: r) with
        | some t => .redirection :: tokens (r.drop (t.length - 1))
        | none =>
          match word .plain (c :: r) with
          | none => [.broken]
          | some (w, rest) =>
            if rest.length ≤ r.length then if isChannel w rest then tokens rest else .word w :: tokens rest
            else [.broken]
termination_by s.length
decreasing_by all_goals simp_all only [List.length_cons, List.length_drop]; omega

end EdgeTunnel.Transport.Script
