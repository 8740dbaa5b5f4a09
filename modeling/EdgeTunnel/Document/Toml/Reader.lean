/-
Reading TOML text.

A document is a list of lines: blank lines, comments, headers in brackets, and keys with values. Arrays and inline tables
nest at most 79 deep, and a dotted key has at most 79 parts.
-/
import EdgeTunnel.Document.Toml.Scalar
import EdgeTunnel.Document.Toml.Table

namespace EdgeTunnel.Toml

def maxDepth : Nat := 79

def skipComment (s : List Char) : List Char :=
  match s with
  | '#' :: r => r.dropWhile isPlain
  | s => s

/-- the rest after the end of a line: blanks, an optional comment, and a line ending or the end of the text -/
def lineEnd (s : List Char) : Option (List Char) :=
  match skipComment (skipSpace s) with
  | [] => some []
  | s => newline? s

def isBare (c : Char) : Bool := c.isAlphanum || c == '_' || c == '-'

def keyPart (s : List Char) : Option (String × List Char) :=
  match s with
  | '"' :: r => (basic r).map fun p => (String.ofList p.1, p.2)
  | '\'' :: r => (literal r).map fun p => (String.ofList p.1, p.2)
  | s =>
    let cs := s.takeWhile isBare
    if cs.isEmpty then none else some (String.ofList cs, s.drop cs.length)

/-- the parts of a dotted key, with blanks around each; the first argument bounds their number -/
def keyParts : Nat → List Char → Option (List String × List Char)
  | 0, _ => none
  | n + 1, s => do
    let (k, s) ← keyPart (skipSpace s)
    match skipSpace s with
    | '.' :: r => do
      let (ks, r) ← keyParts n r
      return (k :: ks, r)
    | r => return ([k], r)

/-- a key, at most 79 parts -/
def key (s : List Char) : Option (List String × List Char) := keyParts maxDepth s

/-- drops blanks, comments and line endings; the first argument bounds the number of lines -/
def skipLines : Nat → List Char → Option (List Char)
  | 0, s => some s
  | n + 1, s =>
    match skipSpace s with
    | '#' :: r =>
      match newline? (r.dropWhile isPlain) with
      | some r => skipLines n r
      | none => none
    | s =>
      match newline? s with
      | some r => skipLines n r
      | none => if s.head? = some '\r' then none else some s

/-- the elements of an array up to its closing bracket, a comma allowed after the last -/
def elements (value : List Char → Option (Data × List Char)) : Nat → List Char → Option (List Data × List Char)
  | 0, _ => none
  | n + 1, s => do
    match ← skipLines s.length s with
    | ']' :: r => return ([], r)
    | s => do
      let (x, s) ← value s
      match ← skipLines s.length s with
      | ',' :: r => do
        let (xs, r) ← elements value n r
        return (x :: xs, r)
      | ']' :: r => return ([x], r)
      | _ => none

/-- the pairs of an inline table up to its closing brace, on one line and without a comma after the last -/
def inlinePairs (value : List Char → Option (Data × List Char)) (t : Table) :
    Nat → List Char → Option (Table × List Char)
  | 0, _ => none
  | n + 1, s => do
    let (ks, s) ← key s
    let s ← expect '=' s
    let (x, s) ← value (skipSpace s)
    let t ← t.addDotted false ks.dropLast (ks.getLastD "") x
    match skipSpace s with
    | ',' :: r => inlinePairs value t n r
    | '\x7d' :: r => return (t, r)
    | _ => none

/-- a value; the first argument is how deep it may still nest -/
def value : Nat → List Char → Option (Data × List Char)
  | room, s =>
    match s with
    | '"' :: _ => (string s).map fun p => (.ofString (String.ofList p.1), p.2)
    | '\'' :: _ => (string s).map fun p => (.ofString (String.ofList p.1), p.2)
    | '[' :: r =>
      match room with
      | 0 => none
      | room + 1 => (elements (value room) (r.length + 1) r).map fun p => (.list p.1, p.2)
    | '\x7b' :: r =>
      match room with
      | 0 => none
      | room + 1 =>
        match skipSpace r with
        | '\x7d' :: r => some (.record [], r)
        | r => (inlinePairs (value room) (.empty .explicit) (r.length + 1) r).map fun p => (p.1.toData, p.2)
    | 't' :: 'r' :: 'u' :: 'e' :: r => some (.bool true, r)
    | 'f' :: 'a' :: 'l' :: 's' :: 'e' :: r => some (.bool false, r)
    | s => numeric s

/-- the document so far and the path of the last header -/
structure Document where
  root : Table
  header : List String

/-- a header line after its first bracket -/
def headerLine (d : Document) (s : List Char) : Option (Document × List Char) :=
  match s with
  | '[' :: r => do
    let (ks, r) ← key r
    let r ← expect ']' r
    let r ← expect ']' r
    let r ← lineEnd r
    let t ← d.root.openElement ks
    return (⟨t, ks⟩, r)
  | r => do
    let (ks, r) ← key r
    let r ← expect ']' r
    let r ← lineEnd r
    let t ← d.root.openTable ks
    return (⟨t, ks⟩, r)

def pairLine (d : Document) (s : List Char) : Option (Document × List Char) := do
  let (ks, s) ← key s
  let s ← expect '=' s
  let (x, s) ← value maxDepth (skipSpace s)
  let s ← lineEnd s
  let t ← d.root.addUnder d.header ks.dropLast (ks.getLastD "") x
  return (⟨t, d.header⟩, s)

/-- the document after all lines; the first argument bounds their number -/
def docLines : Nat → Document → List Char → Option Document
  | 0, d, s => if s.isEmpty then some d else none
  | n + 1, d, s =>
    match skipSpace s with
    | [] => some d
    | '#' :: r =>
      match lineEnd ('#' :: r) with
      | some r => docLines n d r
      | none => none
    | '[' :: r =>
      match headerLine d r with
      | some (d, r) => docLines n d r
      | none => none
    | s =>
      match newline? s with
      | some r => docLines n d r
      | none =>
        match pairLine d s with
        | some (d, r) => docLines n d r
        | none => none

/-- the record that a text writes; a byte order mark in front is dropped -/
def parse (s : String) : Option Data :=
  let cs := match s.toList with
    | '\uFEFF' :: r => r
    | r => r
  (docLines cs.length ⟨.empty .explicit, []⟩ cs).map fun d => d.root.toData

end EdgeTunnel.Toml
