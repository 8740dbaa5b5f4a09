/-
Reading JSON text.

`parse` accepts one value with blanks around it and nothing else: no comments, no trailing commas, control characters in
strings only as escapes. A number is an integer when it is written without fraction and exponent and fits 64 bits, signed
or unsigned; minus zero and every other number are fractional. Repeated keys are kept, for the reader of a record to judge.
A text that stops too early is told from one that goes wrong before its end.
-/
import EdgeTunnel.Document.Data
import EdgeTunnel.Text.Decimal

namespace EdgeTunnel.Json

/-- what is being read -/
inductive Part where
  | value
  | string
  | list
  | object
  deriving DecidableEq, Repr

/-- a part with its article -/
def Part.name : Part → String
  | .value => "a value"
  | .string => "a string"
  | .list => "a list"
  | .object => "an object"

/-- why a text is refused -/
inductive Fault where
  /-- it stops inside a part -/
  | ended (inside : Part)
  /-- something stands where it may not -/
  | unexpected
  deriving DecidableEq, Repr

/-- drops the blanks of the format -/
def skip (s : List Char) : List Char := s.dropWhile fun c => c == ' ' || c == '\t' || c == '\n' || c == '\r'

/-- what a string is made of: characters, and 16-bit units given by number -/
inductive Piece where
  | char (c : Char)
  | unit (n : Nat)

/-- the characters of a string's pieces: units that make a surrogate pair are one character, half a pair is none -/
def Piece.join : List Piece → Option (List Char)
  | [] => some []
  | .char c :: r => (join r).map (c :: ·)
  | .unit n :: .unit m :: r =>
    if 0xD800 ≤ n ∧ n < 0xDC00 then
      if 0xDC00 ≤ m ∧ m < 0xE000 then
        (join r).map (Char.ofNat (0x10000 + (n - 0xD800) * 0x400 + (m - 0xDC00)) :: ·)
      else none
    else if 0xDC00 ≤ n ∧ n < 0xE000 then none
    else (join (.unit m :: r)).map (Char.ofNat n :: ·)
  | .unit n :: r => if 0xD800 ≤ n ∧ n < 0xE000 then none else (join r).map (Char.ofNat n :: ·)

/-- four hexadecimal digits -/
def unit? (a b c d : Char) : Option Nat :=
  if [a, b, c, d].all (Text.isDigitOf 16) then some (Text.valueOf 16 [a, b, c, d]) else none

/-- the pieces up to the closing quote, and the rest -/
def pieces : List Char → Except Fault (List Piece × List Char)
  | [] => .error (.ended .string)
  | '"' :: r => .ok ([], r)
  | '\\' :: e :: r =>
    let plain := fun (c : Char) => (pieces r).map fun p => (Piece.char c :: p.1, p.2)
    match e with
    | '"' => plain '"'
    | '\\' => plain '\\'
    | '/' => plain '/'
    | 'b' => plain '\x08'
    | 'f' => plain '\x0c'
    | 'n' => plain '\n'
    | 'r' => plain '\r'
    | 't' => plain '\t'
    | 'u' =>
      match r with
      | a :: b :: c :: d :: r =>
        match unit? a b c d with
        | some n => (pieces r).map fun p => (.unit n :: p.1, p.2)
        | none => .error .unexpected
      | _ => .error (.ended .string)
    | _ => .error .unexpected
  | c :: r => if c.toNat < 0x20 then .error .unexpected else (pieces r).map fun p => (.char c :: p.1, p.2)

/-- a string after its opening quote: its characters if it has any, and the rest -/
def string (s : List Char) : Except Fault (Option String × List Char) := do
  let (ps, rest) ← pieces s
  return ((Piece.join ps).map String.ofList, rest)

/-- one or more digits, and the rest -/
def digits (s : List Char) : Except Fault (List Char × List Char) :=
  let ds := s.takeWhile (Text.isDigitOf 10)
  if ds.isEmpty then .error (if s.isEmpty then .ended .value else .unexpected) else .ok (ds, s.drop ds.length)

/-- the rest after a fraction, if there is one, and whether there is -/
def fraction : List Char → Except Fault (Bool × List Char)
  | '.' :: r => do
    let (_, r) ← digits r
    return (true, r)
  | s => .ok (false, s)

/-- the rest after an exponent, if there is one, and whether there is -/
def exponent (s : List Char) : Except Fault (Bool × List Char) :=
  match s with
  | c :: r =>
    if c = 'e' ∨ c = 'E' then do
      let r := match r with
        | '+' :: r => r
        | '-' :: r => r
        | r => r
      let (_, r) ← digits r
      return (true, r)
    else .ok (false, s)
  | [] => .ok (false, [])

/-- the value of a number without fraction and exponent -/
def whole (negative : Bool) (n : Nat) : Data :=
  if negative then
    if n = 0 ∨ 2 ^ 63 < n then .real else .integer (-n)
  else if n < 2 ^ 64 then .integer n else .real

/-- a number after its sign -/
def number (negative : Bool) (s : List Char) : Except Fault (Data × List Char) := do
  let (ds, s) ← digits s
  if ds.head? = some '0' ∧ 1 < ds.length then throw .unexpected
  let (f, s) ← fraction s
  let (e, s) ← exponent s
  return (if f || e then .real else whole negative (Text.valueOf 10 ds), s)

/-- the rest after the letters of a word -/
def word : List Char → List Char → Except Fault (List Char)
  | [], s => .ok s
  | _ :: _, [] => .error (.ended .value)
  | c :: w, d :: s => if c = d then word w s else .error .unexpected

/-- the fault of a rest that does not go on inside a part -/
def fault (inside : Part) (rest : List Char) : Fault := if rest.isEmpty then .ended inside else .unexpected

mutual

/-- a value and the rest; the first argument bounds the depth of the reading -/
def value : Nat → List Char → Except Fault (Data × List Char)
  | 0, _ => .error .unexpected
  | n + 1, s =>
    match skip s with
    | 'n' :: r => (word ['u', 'l', 'l'] r).map (.null, ·)
    | 't' :: r => (word ['r', 'u', 'e'] r).map (.bool true, ·)
    | 'f' :: r => (word ['a', 'l', 's', 'e'] r).map (.bool false, ·)
    | '"' :: r => (string r).map fun p => (.text p.1, p.2)
    | '-' :: r => number true r
    | '[' :: r =>
      match skip r with
      | [] => .error (.ended .list)
      | ']' :: r => .ok (.list [], r)
      | r => (elements n r).map fun p => (.list p.1, p.2)
    | '\x7b' :: r =>
      match skip r with
      | [] => .error (.ended .object)
      | '\x7d' :: r => .ok (.record [], r)
      | r => (members n r).map fun p => (.record p.1, p.2)
    | r => number false r

/-- the elements of a list up to its closing bracket -/
def elements : Nat → List Char → Except Fault (List Data × List Char)
  | 0, _ => .error .unexpected
  | n + 1, s => do
    let (x, s) ← value n s
    match skip s with
    | ',' :: r => (elements n r).map fun p => (x :: p.1, p.2)
    | ']' :: r => .ok ([x], r)
    | r => .error (fault .list r)

/-- the members of a record up to its closing brace -/
def members : Nat → List Char → Except Fault (List (Option String × Data) × List Char)
  | 0, _ => .error .unexpected
  | n + 1, s =>
    match skip s with
    | '"' :: r => do
      let (k, r) ← string r
      let x ← match skip r with
        | ':' :: r => value n r
        | r => .error (fault .object r)
      match skip x.2 with
      | ',' :: r => (members n r).map fun p => ((k, x.1) :: p.1, p.2)
      | '\x7d' :: r => .ok ([(k, x.1)], r)
      | r => .error (fault .object r)
    | r => .error (fault .value r)

end

def parse (s : String) : Except Fault Data := do
  let cs := s.toList
  let (x, r) ← value (2 * cs.length + 2) cs
  if (skip r).isEmpty then return x else throw .unexpected

end EdgeTunnel.Json
