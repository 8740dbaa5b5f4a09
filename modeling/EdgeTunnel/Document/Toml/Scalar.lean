/-
TOML strings, numbers and moments.

Each reader takes the text at its place and answers the value with the rest, or nothing. Control characters other than the
tab never stand in a text; a line of a multi-line string may end in either way and is read as a line feed.
-/
import EdgeTunnel.Document.Data
import EdgeTunnel.Text.Decimal

namespace EdgeTunnel.Toml

/-- a space or a tab -/
def isSpace (c : Char) : Bool := c == ' ' || c == '\t'

def skipSpace (s : List Char) : List Char := s.dropWhile isSpace

/-- may the character stand in a text or a comment as it is? -/
def isPlain (c : Char) : Bool := c == '\t' || (0x20 ≤ c.toNat && c.toNat != 0x7F)

def newline? : List Char → Option (List Char)
  | '\n' :: r => some r
  | '\r' :: '\n' :: r => some r
  | _ => none

/-- the character that hexadecimal digits number -/
def scalar? (ds : List Char) : Option Char :=
  if ds.all (Text.isDigitOf 16) then
    let n := Text.valueOf 16 ds
    if n < 0xD800 ∨ (0xE000 ≤ n ∧ n < 0x110000) then some (Char.ofNat n) else none
  else none

/-- the character that stands for an escape letter -/
def escaped? : Char → Option Char
  | 'b' => some '\x08'
  | 't' => some '\t'
  | 'n' => some '\n'
  | 'f' => some '\x0c'
  | 'r' => some '\r'
  | '"' => some '"'
  | '\\' => some '\\'
  | _ => none

/-- the rest of a basic string: its characters up to the closing quote, and the rest -/
def basic : List Char → Option (List Char × List Char)
  | [] => none
  | '"' :: r => some ([], r)
  | '\\' :: 'u' :: a :: b :: c :: d :: r => do
    let x ← scalar? [a, b, c, d]
    let (cs, rest) ← basic r
    return (x :: cs, rest)
  | '\\' :: 'U' :: a :: b :: c :: d :: e :: f :: g :: h :: r => do
    let x ← scalar? [a, b, c, d, e, f, g, h]
    let (cs, rest) ← basic r
    return (x :: cs, rest)
  | '\\' :: e :: r => do
    let x ← escaped? e
    let (cs, rest) ← basic r
    return (x :: cs, rest)
  | c :: r =>
    if isPlain c && c != '\\' then (basic r).map fun p => (c :: p.1, p.2) else none

/-- the closing quotes of a multi-line string and up to two quotes before them -/
def closing (q : Char) (r : List Char) : List Char × List Char :=
  match r with
  | a :: b :: rest => if a = q ∧ b = q then ([q, q], rest) else if a = q then ([q], b :: rest) else ([], r)
  | [a] => if a = q then ([q], []) else ([], r)
  | [] => ([], [])

/-- the rest of a multi-line basic string. While `folding`, blanks and line endings are dropped: a backslash at the end
of a line starts that, the next other character ends it. -/
def multiBasic (folding : Bool) : List Char → Option (List Char × List Char)
  | [] => none
  | '"' :: '"' :: '"' :: r => some (closing '"' r)
  | '\\' :: 'u' :: a :: b :: c :: d :: r => do
    let x ← scalar? [a, b, c, d]
    let (cs, rest) ← multiBasic false r
    return (x :: cs, rest)
  | '\\' :: 'U' :: a :: b :: c :: d :: e :: f :: g :: h :: r => do
    let x ← scalar? [a, b, c, d, e, f, g, h]
    let (cs, rest) ← multiBasic false r
    return (x :: cs, rest)
  | '\\' :: e :: r =>
    match escaped? e with
    | some x => (multiBasic false r).map fun p => (x :: p.1, p.2)
    | none => if (newline? (skipSpace (e :: r))).isSome then multiBasic true (e :: r) else none
  | '\r' :: '\n' :: r =>
    if folding then multiBasic true r else (multiBasic false r).map fun p => ('\n' :: p.1, p.2)
  | c :: r =>
    if folding && (isSpace c || c == '\n') then multiBasic true r
    else if c == '\n' || (isPlain c && c != '\\') then (multiBasic false r).map fun p => (c :: p.1, p.2)
    else none

/-- the rest of a literal string -/
def literal : List Char → Option (List Char × List Char)
  | [] => none
  | '\'' :: r => some ([], r)
  | c :: r => if isPlain c then (literal r).map fun p => (c :: p.1, p.2) else none

/-- the rest of a multi-line literal string -/
def multiLiteral : List Char → Option (List Char × List Char)
  | [] => none
  | '\'' :: '\'' :: '\'' :: r => some (closing '\'' r)
  | '\r' :: '\n' :: r => (multiLiteral r).map fun p => ('\n' :: p.1, p.2)
  | c :: r => if c == '\n' || isPlain c then (multiLiteral r).map fun p => (c :: p.1, p.2) else none

def dropNewline (s : List Char) : List Char := (newline? s).getD s

/-- a string value at its opening quote -/
def string : List Char → Option (List Char × List Char)
  | '"' :: '"' :: '"' :: r => multiBasic false (dropNewline r)
  | '"' :: r => basic r
  | '\'' :: '\'' :: '\'' :: r => multiLiteral (dropNewline r)
  | '\'' :: r => literal r
  | _ => none

/-- digits of a base with single underscores between them: the digits, and the rest -/
def spacedDigits (base : Nat) : List Char → Option (List Char × List Char)
  | c :: r =>
    if Text.isDigitOf base c then
      match r with
      | '_' :: d :: r' =>
        if Text.isDigitOf base d then (spacedDigits base (d :: r')).map fun p => (c :: p.1, p.2) else none
      | ['_'] => none
      | d :: r' =>
        if Text.isDigitOf base d then (spacedDigits base (d :: r')).map fun p => (c :: p.1, p.2)
        else some ([c], d :: r')
      | [] => some ([c], [])
    else none
  | [] => none

/-- the digits of a decimal number: a zero alone, or digits that do not start with one -/
def wholeDigits : List Char → Option (List Char × List Char)
  | '0' :: r => some (['0'], r)
  | s => spacedDigits 10 s

/-- digits after a point, none without one, and whether there is one -/
def fraction : List Char → Option (Bool × List Char × List Char)
  | '.' :: r => do
    let (ds, r) ← spacedDigits 10 r
    return (true, ds, r)
  | s => some (false, [], s)

/-- the sign in front of a number: is it a minus? -/
def sign : List Char → Bool × List Char
  | '+' :: r => (false, r)
  | '-' :: r => (true, r)
  | s => (false, s)

/-- an exponent, zero without one, and whether there is one -/
def exponent (s : List Char) : Option (Bool × Int × List Char) :=
  match s with
  | c :: r =>
    if c = 'e' ∨ c = 'E' then do
      let (minus, r) := sign r
      let (ds, r) ← spacedDigits 10 r
      let n := Text.valueOf 10 ds
      return (true, if minus then -(n : Int) else n, r)
    else some (false, 0, s)
  | [] => some (false, 0, [])

/-- is `m` times ten to the power `e` rounded to infinity in 64-bit floating point? -/
def overflows (m : Nat) (e : Int) : Bool :=
  let size : Int := (Nat.toDigits 10 m).length + e
  if m = 0 ∨ size < 300 then false
  else if 320 < size then true
  else if 0 ≤ e then 2 ^ 1024 - 2 ^ 970 ≤ m * 10 ^ e.toNat
  else (2 ^ 1024 - 2 ^ 970) * 10 ^ (-e).toNat ≤ m

def based (base : Nat) (s : List Char) : Option (Data × List Char) := do
  let (ds, r) ← spacedDigits base s
  let n := Text.valueOf base ds
  if n < 2 ^ 63 then return (.integer n, r) else none

/-- a decimal number after its sign: an integer of 64 bits, or a fractional number that is not too large -/
def decimalNumber (minus : Bool) (s : List Char) : Option (Data × List Char) := do
  let (ds, s) ← wholeDigits s
  let (point, fs, s) ← fraction s
  let (power, e, s) ← exponent s
  let n := Text.valueOf 10 ds
  if point || power then
    if !minus && overflows (Text.valueOf 10 (ds ++ fs)) (e - fs.length) then none else return (.real, s)
  else if minus then
    if n ≤ 2 ^ 63 then return (.integer (-(n : Int)), s) else none
  else if n < 2 ^ 63 then return (.integer n, s)
  else none

def number (s : List Char) : Option (Data × List Char) :=
  match s with
  | '0' :: 'x' :: r => based 16 r
  | '0' :: 'o' :: r => based 8 r
  | '0' :: 'b' :: r => based 2 r
  | _ =>
    let (minus, r) := sign s
    match r with
    | 'i' :: 'n' :: 'f' :: r => some (.real, r)
    | 'n' :: 'a' :: 'n' :: r => some (.real, r)
    | r => decimalNumber minus r

/-- two digits and the rest, when the number they write is in range -/
def pair (least most : Nat) : List Char → Option (Nat × List Char)
  | a :: b :: r =>
    if Text.isDigitOf 10 a && Text.isDigitOf 10 b then
      let n := Text.valueOf 10 [a, b]
      if least ≤ n ∧ n ≤ most then some (n, r) else none
    else none
  | _ => none

/-- the rest after one given character -/
def expect (c : Char) : List Char → Option (List Char)
  | d :: r => if c = d then some r else none
  | [] => none

/-- the rest after minutes and seconds, with an optional fraction of a second -/
def minutes (s : List Char) : Option (List Char) := do
  let (_, s) ← pair 0 59 s
  let s ← expect ':' s
  let (_, s) ← pair 0 60 s
  match s with
  | '.' :: d :: r => if Text.isDigitOf 10 d then return r.dropWhile (Text.isDigitOf 10) else return s
  | _ => return s

/-- the rest after an offset from universal time, if there is one -/
def offset (s : List Char) : Option (List Char) :=
  match s with
  | 'Z' :: r => some r
  | 'z' :: r => some r
  | c :: r =>
    if c = '+' ∨ c = '-' then do
      let (_, r) ← pair 0 23 r
      let r ← expect ':' r
      let (_, r) ← pair 0 59 r
      return r
    else some s
  | [] => some []

def daysIn (year month : Nat) : Nat :=
  if month = 2 then (if year % 4 = 0 ∧ (year % 100 ≠ 0 ∨ year % 400 = 0) then 29 else 28)
  else if month = 4 ∨ month = 6 ∨ month = 9 ∨ month = 11 then 30
  else 31

/-- the rest after hours and a colon, when a time starts here -/
def hours (s : List Char) : Option (List Char) := do
  let (_, s) ← pair 0 23 s
  expect ':' s

/-- a date after its year, with a time if one follows -/
def date (year : Nat) (s : List Char) : Option (Data × List Char) := do
  let (month, s) ← pair 1 12 s
  let s ← expect '-' s
  let (day, s) ← pair 1 31 s
  if daysIn year month < day then none
  match s with
  | c :: r =>
    if c = 'T' ∨ c = 't' ∨ c = ' ' then
      match hours r with
      | some r => do
        let r ← minutes r
        let r ← offset r
        return (.moment, r)
      | none => return (.moment, s)
    else return (.moment, s)
  | [] => return (.moment, [])

/-- a year and a dash, when a date starts here -/
def year? : List Char → Option (Nat × List Char)
  | a :: b :: c :: d :: '-' :: r =>
    if [a, b, c, d].all (Text.isDigitOf 10) then some (Text.valueOf 10 [a, b, c, d], r) else none
  | _ => none

/-- a number or a moment -/
def numeric (s : List Char) : Option (Data × List Char) :=
  match year? s with
  | some (y, r) => date y r
  | none =>
    match hours s with
    | some r => do
      let r ← minutes r
      return (.moment, r)
    | none => number s

end EdgeTunnel.Toml
